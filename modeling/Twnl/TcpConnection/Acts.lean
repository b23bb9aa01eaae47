import Twnl.TcpConnection.Basic

/-!
# Acts of a connection

Users call a connection from their callbacks and from other threads, so that an event is not one
change of its state but several, with users in between. An `Act` is what the connection does between
two such points: a call, a third of a call from another thread, a functor, the read of a read event,
the offer to the message callback, a drain, and the two halves of a closing. A step on the loop's
own thread is a run of acts of that thread (`step_acts`), in which the calls made in a callback are
acts of their own.

The assert of `handleClose` is left to the steps: what is shown of all acts holds of a build without
asserts as well, in which a connection that is closed already may go down again.
-/

namespace Twnl

namespace TcpConnection

open Machine

inductive Act
  | user (call : UserCall)
  | callBegins (call : UserCall)
  | callSets (call : UserCall)
  | callEnds (call : UserCall)
  /-- The functor at the head of the queue runs. What a callback among them does are further
  acts. -/
  | pending (answer : WriteResult)
  | setRevents (revents : Mask)
  /-- The read of `handleRead`. -/
  | read (reads : List ReadResult)
  /-- The message callback is offered the input and retrieves from it. -/
  | offer (consumed : ℕ)
  | handleWrite (writes : ℕ → WriteResult)
  /-- `handleClose` up to the calls made in the connection callback. -/
  | goDown
  /-- The close callback at its end. -/
  | closeCallback

variable (k : Masks)

/-- The state and the interest go, and the connection callback is called. -/
def goDown (s : Session) : Except Fault Session := do
  let disabled ← (s.setState .kDisconnected).channelCall k .disableAll
  .ok (disabled.record (.connectionCallback disabled.glance))

/-- A functor, up to the calls made in a callback. -/
def runPlain (s : Session) (answer : WriteResult) : Functor → Except Fault Session
  | .sendInLoop data => sendInLoop k s data answer
  | .shutdownInLoop => .ok (shutdownInLoop k s)
  | .forceCloseInLoop =>
    if s.conn.state = .kDisconnecting ∨ s.conn.state = .kConnected then goDown k s else .ok s
  | .startReadInLoop => startReadInLoop k s
  | .stopReadInLoop => stopReadInLoop k s
  | .writeCompleteCallback => .ok s
  | .highWaterMarkCallback _ => .ok s

def act (s : Session) : Act → Except Fault Session
  | .user call => userCall k s call
  | .callBegins call => TcpConnection.callBegins s call
  | .callSets call => .ok (TcpConnection.callSets s call)
  | .callEnds call => .ok (TcpConnection.callEnds s call)
  | .pending answer =>
    match s.pendingFunctors with
    | [] => .ok s
    | f :: fs => runPlain k { s with pendingFunctors := fs } answer f
  | .setRevents revents => .ok (s.withRevents revents)
  | .read reads => do
    let (_, _, inputBuffer) ← readInput k s.conn.inputBuffer reads
    .ok (s.withInput inputBuffer)
  | .offer consumed => do
    let inputBuffer ← s.conn.inputBuffer.retrieve consumed
    .ok ((s.record (.messageCallback s.conn.inputBuffer.readable consumed)).withInput inputBuffer)
  | .handleWrite writes => TcpConnection.handleWrite k s writes
  | .goDown => TcpConnection.goDown k s
  | .closeCallback => .ok (s.record (.closeCallback s.glance))

/-! ## A step is a run of acts -/

variable {k} {s s' t : Session} {env : Env}

/-- An act of the loop's own thread. -/
def Act.isOwn : Act → Bool
  | .callBegins _ | .callSets _ | .callEnds _ => false
  | .user _ | .pending _ | .setRevents _ | .read _ | .offer _ | .handleWrite _ | .goDown
  | .closeCallback => true

/-- The act that a step of another thread is. -/
def Step.otherAct : Step → Option Act
  | .callBegins call => some (.callBegins call)
  | .callSets call => some (.callSets call)
  | .callEnds call => some (.callEnds call)
  | .handleEvent _ _ | .user _ | .pending _ => none

/-- Some acts lead from one state to the other. -/
def Acts (k : Masks) (s s' : Session) : Prop := ∃ acts, run (act k) s acts = .ok s'

/-- The same of acts of the loop's own thread. -/
def OwnActs (k : Masks) (s s' : Session) : Prop :=
  ∃ acts, (∀ a ∈ acts, a.isOwn = true) ∧ run (act k) s acts = .ok s'

theorem Acts.refl (s : Session) : Acts k s s := ⟨[], rfl⟩

theorem Acts.single {a : Act} (h : act k s a = .ok s') : Acts k s s' :=
  ⟨[a], run_cons_eq_ok.mpr ⟨s', h, rfl⟩⟩

theorem Acts.trans (h : Acts k s t) (h' : Acts k t s') : Acts k s s' := by
  obtain ⟨acts, hrun⟩ := h
  obtain ⟨acts', hrun'⟩ := h'
  exact ⟨acts ++ acts', run_append_eq_ok.mpr ⟨t, hrun, hrun'⟩⟩

theorem OwnActs.acts (h : OwnActs k s s') : Acts k s s' :=
  let ⟨acts, _, hrun⟩ := h
  ⟨acts, hrun⟩

theorem OwnActs.refl (s : Session) : OwnActs k s s := ⟨[], List.forall_mem_nil _, rfl⟩

theorem OwnActs.single {a : Act} (ha : a.isOwn = true) (h : act k s a = .ok s') :
    OwnActs k s s' :=
  ⟨[a], List.forall_mem_singleton.mpr ha, run_cons_eq_ok.mpr ⟨s', h, rfl⟩⟩

theorem OwnActs.trans (h : OwnActs k s t) (h' : OwnActs k t s') : OwnActs k s s' := by
  obtain ⟨acts, hown, hrun⟩ := h
  obtain ⟨acts', hown', hrun'⟩ := h'
  exact ⟨acts ++ acts', List.forall_mem_append.mpr ⟨hown, hown'⟩,
    run_append_eq_ok.mpr ⟨t, hrun, hrun'⟩⟩

/-- The calls made in a callback. -/
theorem inCallback_acts {calls : List UserCall} (h : inCallback k s calls = .ok s') :
    OwnActs k s s' := by
  induction calls generalizing s with
  | nil =>
    obtain rfl := Except.ok.inj h
    exact .refl s
  | cons c calls ih =>
    obtain ⟨t, ht, h⟩ := run_cons_eq_ok.mp h
    exact (OwnActs.single (a := .user c) rfl ht).trans (ih h)

/-- A closing without its assert. -/
theorem closes_acts {disabled down : Session} {calls : List UserCall}
    (hdisabled : (s.setState .kDisconnected).channelCall k .disableAll = .ok disabled)
    (hdown : connectionCallback k disabled calls = .ok down) :
    goDown k s = .ok (disabled.record (.connectionCallback disabled.glance)) ∧
      OwnActs k (disabled.record (.connectionCallback disabled.glance))
        (down.record (.closeCallback down.glance)) := by
  constructor
  · rw [goDown, hdisabled, bind_ok]
  · exact (inCallback_acts hdown).trans (OwnActs.single (a := .closeCallback) rfl rfl)

theorem handleClose_acts (h : handleClose k s env = .ok s') : OwnActs k s s' := by
  obtain ⟨_, -, h⟩ := bind_eq_ok.mp h
  obtain ⟨disabled, hdisabled, h⟩ := bind_eq_ok.mp h
  obtain ⟨down, hdown, h⟩ := bind_eq_ok.mp h
  obtain rfl := Except.ok.inj h
  obtain ⟨hgo, hrest⟩ := closes_acts hdisabled hdown
  exact (OwnActs.single (a := .goDown) rfl hgo).trans hrest

theorem messageCallback_acts (h : messageCallback k s env = .ok s') : OwnActs k s s' := by
  obtain ⟨inputBuffer, hretrieve, h⟩ := bind_eq_ok.mp h
  have hoffer : act k s (.offer env.consumed) = .ok ((s.record
      (.messageCallback s.conn.inputBuffer.readable env.consumed)).withInput inputBuffer) := by
    rw [act, hretrieve, bind_ok]
  exact (OwnActs.single rfl hoffer).trans (inCallback_acts h)

theorem handleRead_acts (h : handleRead k s env = .ok s') : OwnActs k s s' := by
  obtain ⟨⟨n, saved, inputBuffer⟩, hread, h⟩ := bind_eq_ok.mp h
  have hact : act k s (.read env.reads) = .ok (s.withInput inputBuffer) := by
    rw [act, hread]
    rfl
  refine (OwnActs.single rfl hact).trans ?_
  change (if 0 < n then _ else _) = _ at h
  split at h
  · exact messageCallback_acts h
  · split at h
    · exact handleClose_acts h
    · obtain rfl := Except.ok.inj h
      exact .refl _

theorem handleIf_acts {p : Bool} {handler : Session → Except Fault Session}
    (hhandler : ∀ s s', handler s = .ok s' → OwnActs k s s')
    (h : handleIf p handler s = .ok s') : OwnActs k s s' := by
  rw [handleIf] at h
  split at h
  · exact hhandler s s' h
  · obtain rfl := Except.ok.inj h
    exact .refl s

theorem handleEvent_acts {revents : Mask} (h : handleEvent k s revents env = .ok s') :
    OwnActs k s s' := by
  obtain ⟨closed, hclosed, h⟩ := bind_eq_ok.mp h
  obtain ⟨errored, herrored, h⟩ := bind_eq_ok.mp h
  obtain ⟨read, hread, h⟩ := bind_eq_ok.mp h
  have hset : act k s (.setRevents revents) = .ok (s.withRevents revents) := rfl
  have hclose := handleIf_acts (fun _ _ ↦ handleClose_acts) hclosed
  have herror := handleIf_acts (k := k)
    (fun t t' (ht : Except.ok (handleError t) = .ok t') ↦ Except.ok.inj ht ▸ .refl t) herrored
  have hreads := handleIf_acts (fun _ _ ↦ handleRead_acts) hread
  have hwrite := handleIf_acts
    (fun t t' (ht : handleWrite k t env.writes = .ok t') ↦
      OwnActs.single (a := .handleWrite env.writes) rfl ht) h
  exact ((((OwnActs.single rfl hset).trans hclose).trans herror).trans hreads).trans hwrite

theorem pending_acts (h : step k s (.pending env) = .ok s') : OwnActs k s s' := by
  rw [step] at h
  split at h
  · obtain rfl := Except.ok.inj h
    exact .refl s
  · rename_i f fs hfunctors
    have hact {t : Session}
        (ht : runPlain k { s with pendingFunctors := fs } (env.writes 0) f = .ok t) :
        OwnActs k s t := by
      refine OwnActs.single (a := .pending (env.writes 0)) rfl ?_
      rw [act, hfunctors]
      exact ht
    cases f with
    | sendInLoop _ | shutdownInLoop | startReadInLoop | stopReadInLoop => exact hact h
    | writeCompleteCallback | highWaterMarkCallback _ =>
      exact (hact rfl).trans (inCallback_acts h)
    | forceCloseInLoop =>
      change (if _ then _ else _) = _ at h
      split at h
      · rename_i hup
        obtain ⟨_, -, h⟩ := bind_eq_ok.mp h
        obtain ⟨disabled, hdisabled, h⟩ := bind_eq_ok.mp h
        obtain ⟨down, hdown, h⟩ := bind_eq_ok.mp h
        obtain rfl := Except.ok.inj h
        obtain ⟨hgo, hrest⟩ := closes_acts hdisabled hdown
        refine (hact ?_).trans hrest
        rw [runPlain, if_pos hup]
        exact hgo
      · rename_i hup
        obtain rfl := Except.ok.inj h
        exact hact (if_neg hup)

/-- **A step is a run of acts**: on the loop's own thread of acts of that thread, and on another the
act that the step is. -/
theorem step_acts {i : Step} (h : step k s i = .ok s') :
    OwnActs k s s' ∨ ∃ a, i.otherAct = some a ∧ act k s a = .ok s' := by
  cases i with
  | handleEvent revents env => exact Or.inl (handleEvent_acts h)
  | user call => exact Or.inl (.single (a := .user call) rfl h)
  | callBegins call => exact Or.inr ⟨.callBegins call, rfl, h⟩
  | callSets call => exact Or.inr ⟨.callSets call, rfl, h⟩
  | callEnds call => exact Or.inr ⟨.callEnds call, rfl, h⟩
  | pending env => exact Or.inl (pending_acts h)

end TcpConnection

end Twnl
