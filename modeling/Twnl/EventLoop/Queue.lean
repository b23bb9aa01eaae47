import Mathlib.Algebra.Group.Nat.Defs
import Twnl.Fault
import Twnl.Machine.Run

/-!
# The functor queue of a loop

A loop runs in one thread, and any thread may queue functors in it. A `LoopState` has what the
threads share, `pendingFunctors_` and the counter of the wake-up descriptor, and what only the
loop's thread touches: its flags, the batch it has taken from the queue, and where it is in its
code.

## Interleaving

The steps are those of single threads between two points at which others may come in. A call of
`queueInLoop` is two of them: the push under the lock (`queueInLoop`), and what follows it
(`queued`); a thread in between is one of `queueing`. Handlers and functors are user code, and so
are the destructors of what a functor holds: the batch is a local variable of `doPendingFunctors`,
destroyed when that returns, after the flag is reset. In between its own steps the loop's thread may
queue functors wherever it runs user code. The functors of a batch are called one by one.

## Order

What was executed, what is left of the batch and what is queued make up, in this order, all that was
ever pushed (`inOrder`): the queue is emptied as a whole, and pushes only append to it.
-/

namespace Twnl

/-- Where the loop's thread is. -/
inductive LoopPhase
  /-- Before `loop` or after it. -/
  | outside
  /-- At the test of `quit_`. -/
  | test
  /-- Blocked in `poll`. -/
  | poll
  /-- In the handlers of the active channels. -/
  | dispatch
  /-- In `doPendingFunctors`, before it takes the queue. -/
  | exchange
  /-- In `doPendingFunctors`, executing the batch. -/
  | functors
  /-- At the end of `doPendingFunctors`, destroying the batch. -/
  | destruction
  deriving DecidableEq, Repr

namespace LoopPhase

/-- `looping_` is set. -/
def looping : LoopPhase → Bool
  | .outside => false
  | .test | .poll | .dispatch | .exchange | .functors | .destruction => true

/-- `callingPendingFunctors_` is set. -/
def calling : LoopPhase → Bool
  | .exchange | .functors => true
  | .outside | .test | .poll | .dispatch | .destruction => false

end LoopPhase

/-- A loop and the threads that queue functors in it. A functor comes with the thread that queued
it. -/
structure LoopState (α : Type) where
  threadId : ℕ
  looping : Bool
  quit : Bool
  callingPendingFunctors : Bool
  phase : LoopPhase
  /-- The counter of the wake-up descriptor. -/
  wakeups : ℕ
  pendingFunctors : List (ℕ × α)
  /-- The rest of the batch. -/
  functors : List (ℕ × α)
  executed : List (ℕ × α)
  /-- The threads that have pushed a functor and are still in `queueInLoop`. -/
  queueing : List ℕ
  deriving DecidableEq, Repr

namespace LoopState

open Machine

variable {α : Type}

/-- A loop as its constructor leaves it. -/
def start (threadId : ℕ) : LoopState α :=
  ⟨threadId, false, false, false, .outside, 0, [], [], [], []⟩

/-- The largest value the counter takes. A write that would exceed it fails. -/
def eventfdMax : ℕ := 2 ^ 64 - 2

def wakeup (s : LoopState α) : LoopState α :=
  if s.wakeups < eventfdMax then { s with wakeups := s.wakeups + 1 } else s

/-- `EventLoop::handleRead`, which sets the counter back. -/
def handleRead (s : LoopState α) : LoopState α := { s with wakeups := 0 }

/-- The first half of `queueInLoop`. -/
def push (s : LoopState α) (thread : ℕ) (f : α) : LoopState α :=
  { s with
    pendingFunctors := s.pendingFunctors ++ [(thread, f)], queueing := s.queueing ++ [thread] }

/-- The other half of `queueInLoop`. -/
def queued (s : LoopState α) (thread : ℕ) : LoopState α :=
  if thread ≠ s.threadId ∨ s.callingPendingFunctors = true then
    wakeup { s with queueing := s.queueing.erase thread }
  else { s with queueing := s.queueing.erase thread }

/-- The loop's thread runs user code. -/
def inUserCode (s : LoopState α) : Bool :=
  match s.phase with
  | .outside | .dispatch | .functors | .destruction => true
  | .test | .poll | .exchange => false

/-- The thread may go on with user code: it is not in a call of `queueInLoop`, and if it is the
loop's, that is in user code. -/
def Free (s : LoopState α) (thread : ℕ) : Prop :=
  thread ∉ s.queueing ∧ (thread = s.threadId → s.inUserCode = true)

instance (s : LoopState α) : DecidablePred s.Free := fun _ ↦ inferInstanceAs (Decidable (_ ∧ _))

inductive Step (α : Type)
  /-- The loop's thread calls `loop`. -/
  | loop
  /-- It tests `quit_`, and leaves `loop` or enters `poll`. -/
  | test
  | pollReturns
  /-- The wake-up channel is active, and its handler reads the descriptor. -/
  | handleRead
  /-- The handlers have run. -/
  | doPendingFunctors
  /-- The batch is taken. -/
  | swap
  /-- The next functor of the batch is executed. -/
  | call
  /-- The last functor of the batch has returned, and the flag is reset. -/
  | returns
  /-- The batch has been destroyed. -/
  | destroyed
  | queueInLoop (thread : ℕ) (f : α)
  | queued (thread : ℕ)
  | runInLoop (thread : ℕ) (f : α)
  /-- A call of `wakeup` outside of `queueInLoop`, as in `quit` for other threads. -/
  | wakeup (thread : ℕ)
  | quit (thread : ℕ)
  deriving DecidableEq, Repr

/-- The loop's thread is in the phase, and not in `queueInLoop`. -/
def At (s : LoopState α) (phase : LoopPhase) : Prop := s.phase = phase ∧ s.threadId ∉ s.queueing

instance (s : LoopState α) : DecidablePred s.At := fun _ ↦ inferInstanceAs (Decidable (_ ∧ _))

def step (s : LoopState α) : Step α → Except Fault (LoopState α)
  | .loop =>
    if s.Free s.threadId then do
      check (s.looping = false) .loop
      .ok { s with looping := true, quit := false, phase := .test }
    else .error .impossible
  | .test =>
    if s.At .test then
      if s.quit then .ok { s with looping := false, phase := .outside }
      else .ok { s with phase := .poll }
    else .error .impossible
  | .pollReturns =>
    if s.At .poll then .ok { s with phase := .dispatch } else .error .impossible
  | .handleRead => if s.At .dispatch then .ok s.handleRead else .error .impossible
  | .doPendingFunctors =>
    if s.At .dispatch then .ok { s with callingPendingFunctors := true, phase := .exchange }
    else .error .impossible
  | .swap =>
    if s.At .exchange then
      .ok { s with functors := s.pendingFunctors, pendingFunctors := [], phase := .functors }
    else .error .impossible
  | .call =>
    if s.At .functors then
      match s.functors with
      | f :: fs => .ok { s with functors := fs, executed := s.executed ++ [f] }
      | [] => .error .impossible
    else .error .impossible
  | .returns =>
    if s.At .functors ∧ s.functors.isEmpty then
      .ok { s with callingPendingFunctors := false, phase := .destruction }
    else .error .impossible
  | .destroyed =>
    if s.At .destruction then .ok { s with phase := .test } else .error .impossible
  | .queueInLoop thread f => if s.Free thread then .ok (s.push thread f) else .error .impossible
  | .queued thread => if thread ∈ s.queueing then .ok (s.queued thread) else .error .impossible
  | .runInLoop thread f =>
    if s.Free thread then
      -- in the loop's own thread the functor is executed here and now
      if thread = s.threadId then .ok s else .ok (s.push thread f)
    else .error .impossible
  | .wakeup thread => if s.Free thread then .ok s.wakeup else .error .impossible
  | .quit thread => if s.Free thread then .ok { s with quit := true } else .error .impossible

/-! ## Order -/

/-- What a step pushes. -/
def pushed (threadId : ℕ) : Step α → List (ℕ × α)
  | .queueInLoop thread f => [(thread, f)]
  | .runInLoop thread f => if thread = threadId then [] else [(thread, f)]
  | .loop | .test | .pollReturns | .handleRead | .doPendingFunctors | .swap | .call | .returns
  | .destroyed | .queued _ | .wakeup _ | .quit _ => []

/-- What the steps push, in the order of the lock. -/
def pushes (threadId : ℕ) (steps : List (Step α)) : List (ℕ × α) :=
  steps.flatMap (pushed threadId)

/-- What was taken from the queue: what was executed, and the rest of the batch. -/
def taken (s : LoopState α) : List (ℕ × α) := s.executed ++ s.functors

/-- What was taken and what is queued. -/
def line (s : LoopState α) : List (ℕ × α) := s.taken ++ s.pendingFunctors

variable {s s' : LoopState α} {i : Step α} {steps : List (Step α)}

theorem wakeup_eq (s : LoopState α) : ∃ n, s.wakeup = { s with wakeups := n } := by
  rw [wakeup]
  split
  · exact ⟨_, rfl⟩
  · exact ⟨s.wakeups, rfl⟩

theorem queued_eq (s : LoopState α) (thread : ℕ) :
    ∃ n, s.queued thread = { s with wakeups := n, queueing := s.queueing.erase thread } := by
  rw [queued]
  split
  · obtain ⟨n, hn⟩ := wakeup_eq { s with queueing := s.queueing.erase thread }
    exact ⟨n, hn⟩
  · exact ⟨s.wakeups, rfl⟩

/-- The flags of the loop say where its thread is, and there is a batch only while it is
executed. -/
structure Placed (s : LoopState α) : Prop where
  looping : s.looping = s.phase.looping
  calling : s.callingPendingFunctors = s.phase.calling
  batch : s.phase ≠ .functors → s.functors = []

theorem placed_start (threadId : ℕ) : (start threadId : LoopState α).Placed :=
  ⟨rfl, rfl, fun _ ↦ rfl⟩

theorem Placed.flags (hs : s.Placed) {phase : LoopPhase} (hat : s.phase = phase) :
    s.looping = phase.looping ∧ s.callingPendingFunctors = phase.calling ∧
      (phase ≠ .functors → s.functors = []) := by
  subst hat
  exact ⟨hs.looping, hs.calling, hs.batch⟩

/-- A loop that is not looping is outside. -/
theorem Placed.outside (hs : s.Placed) (h : s.looping = false) : s.phase = .outside := by
  have hlooping := hs.looping.symm.trans h
  cases hphase : s.phase with
  | outside => rfl
  | test | poll | dispatch | exchange | functors | destruction =>
    rw [hphase] at hlooping
    exact absurd hlooping nofun

theorem Placed.step (hs : s.Placed) (h : step s i = .ok s') : s'.Placed := by
  cases i with
  | loop =>
    obtain ⟨-, h⟩ := ite_eq_ok.mp h
    obtain ⟨⟨⟩, hlooping, h⟩ := bind_eq_ok.mp h
    obtain ⟨-, hcalling, hbatch⟩ := hs.flags (hs.outside (check_eq_ok.mp hlooping))
    obtain rfl := Except.ok.inj h
    exact ⟨rfl, hcalling, fun _ ↦ hbatch nofun⟩
  | test =>
    obtain ⟨hat, h⟩ := ite_eq_ok.mp h
    obtain ⟨hlooping, hcalling, hbatch⟩ := hs.flags hat.1
    split at h
    · obtain rfl := Except.ok.inj h
      exact ⟨rfl, hcalling, fun _ ↦ hbatch nofun⟩
    · obtain rfl := Except.ok.inj h
      exact ⟨hlooping, hcalling, fun _ ↦ hbatch nofun⟩
  | pollReturns | destroyed =>
    obtain ⟨hat, h⟩ := ite_eq_ok.mp h
    obtain ⟨hlooping, hcalling, hbatch⟩ := hs.flags hat.1
    obtain rfl := Except.ok.inj h
    exact ⟨hlooping, hcalling, fun _ ↦ hbatch nofun⟩
  | doPendingFunctors =>
    obtain ⟨hat, h⟩ := ite_eq_ok.mp h
    obtain ⟨hlooping, -, hbatch⟩ := hs.flags hat.1
    obtain rfl := Except.ok.inj h
    exact ⟨hlooping, rfl, fun _ ↦ hbatch nofun⟩
  | swap =>
    obtain ⟨hat, h⟩ := ite_eq_ok.mp h
    obtain ⟨hlooping, hcalling, -⟩ := hs.flags hat.1
    obtain rfl := Except.ok.inj h
    exact ⟨hlooping, hcalling, fun hne ↦ absurd rfl hne⟩
  | call =>
    obtain ⟨hat, h⟩ := ite_eq_ok.mp h
    split at h
    · obtain rfl := Except.ok.inj h
      exact ⟨hs.looping, hs.calling, fun hne ↦ absurd hat.1 hne⟩
    · exact absurd h nofun
  | returns =>
    obtain ⟨⟨hat, hnil⟩, h⟩ := ite_eq_ok.mp h
    obtain ⟨hlooping, -, -⟩ := hs.flags hat.1
    obtain rfl := Except.ok.inj h
    exact ⟨hlooping, rfl, fun _ ↦ List.isEmpty_iff.mp hnil⟩
  | runInLoop thread f =>
    obtain ⟨-, h⟩ := ite_eq_ok.mp h
    split at h <;> obtain rfl := Except.ok.inj h <;> exact ⟨hs.looping, hs.calling, hs.batch⟩
  | queued thread =>
    obtain ⟨-, h⟩ := ite_eq_ok.mp h
    obtain ⟨n, hn⟩ := queued_eq s thread
    obtain rfl := Except.ok.inj h
    rw [hn]
    exact ⟨hs.looping, hs.calling, hs.batch⟩
  | wakeup thread =>
    obtain ⟨-, h⟩ := ite_eq_ok.mp h
    obtain ⟨n, hn⟩ := wakeup_eq s
    obtain rfl := Except.ok.inj h
    rw [hn]
    exact ⟨hs.looping, hs.calling, hs.batch⟩
  | handleRead | queueInLoop _ _ | quit _ =>
    obtain ⟨-, h⟩ := ite_eq_ok.mp h
    obtain rfl := Except.ok.inj h
    exact ⟨hs.looping, hs.calling, hs.batch⟩

/-- What a step does to the functors: the exchange takes those that are queued, any other step adds
to them what it pushes and leaves those that were taken. -/
theorem Placed.step_cases (hs : s.Placed) (h : LoopState.step s i = .ok s') :
    s'.threadId = s.threadId ∧
      (i ≠ .swap ∧ s'.taken = s.taken ∧
          s'.pendingFunctors = s.pendingFunctors ++ pushed s.threadId i ∨
        i = .swap ∧ s'.taken = s.taken ++ s.pendingFunctors ∧ s'.pendingFunctors = []) := by
  have hnil : s.pendingFunctors = s.pendingFunctors ++ [] := (List.append_nil _).symm
  cases i with
  | loop =>
    obtain ⟨-, h⟩ := ite_eq_ok.mp h
    obtain ⟨-, -, h⟩ := bind_eq_ok.mp h
    obtain rfl := Except.ok.inj h
    exact ⟨rfl, Or.inl ⟨nofun, rfl, hnil⟩⟩
  | test =>
    obtain ⟨-, h⟩ := ite_eq_ok.mp h
    split at h <;> obtain rfl := Except.ok.inj h <;> exact ⟨rfl, Or.inl ⟨nofun, rfl, hnil⟩⟩
  | swap =>
    obtain ⟨hat, h⟩ := ite_eq_ok.mp h
    -- the last batch was executed to its end
    have hbatch := (hs.flags hat.1).2.2 nofun
    obtain rfl := Except.ok.inj h
    refine ⟨rfl, Or.inr ⟨rfl, ?_, rfl⟩⟩
    rw [taken, taken, hbatch, List.append_nil]
  | call =>
    obtain ⟨-, h⟩ := ite_eq_ok.mp h
    split at h
    · rename_i f fs hfs
      obtain rfl := Except.ok.inj h
      refine ⟨rfl, Or.inl ⟨nofun, ?_, hnil⟩⟩
      -- the functor goes over from the batch to what was executed
      rw [taken, taken, hfs]
      exact List.append_assoc s.executed [f] fs
    · exact absurd h nofun
  | runInLoop thread f =>
    rw [pushed]
    obtain ⟨-, h⟩ := ite_eq_ok.mp h
    split at h
    · rename_i hown
      obtain rfl := Except.ok.inj h
      rw [if_pos hown]
      exact ⟨rfl, Or.inl ⟨nofun, rfl, hnil⟩⟩
    · rename_i hother
      obtain rfl := Except.ok.inj h
      rw [if_neg hother]
      exact ⟨rfl, Or.inl ⟨nofun, rfl, rfl⟩⟩
  | queued thread =>
    obtain ⟨-, h⟩ := ite_eq_ok.mp h
    obtain ⟨n, hn⟩ := queued_eq s thread
    obtain rfl := Except.ok.inj h
    rw [hn]
    exact ⟨rfl, Or.inl ⟨nofun, rfl, hnil⟩⟩
  | wakeup thread =>
    obtain ⟨-, h⟩ := ite_eq_ok.mp h
    obtain ⟨n, hn⟩ := wakeup_eq s
    obtain rfl := Except.ok.inj h
    rw [hn]
    exact ⟨rfl, Or.inl ⟨nofun, rfl, hnil⟩⟩
  | queueInLoop thread f =>
    obtain ⟨-, h⟩ := ite_eq_ok.mp h
    obtain rfl := Except.ok.inj h
    exact ⟨rfl, Or.inl ⟨nofun, rfl, rfl⟩⟩
  | pollReturns | handleRead | doPendingFunctors | returns | destroyed | quit _ =>
    obtain ⟨-, h⟩ := ite_eq_ok.mp h
    obtain rfl := Except.ok.inj h
    exact ⟨rfl, Or.inl ⟨nofun, rfl, hnil⟩⟩

/-- A step adds to the line what it pushes. -/
theorem Placed.step_line (hs : s.Placed) (h : LoopState.step s i = .ok s') :
    s'.line = s.line ++ pushed s.threadId i := by
  rw [line, line, List.append_assoc]
  obtain ⟨-, ⟨-, htaken, hpending⟩ | ⟨rfl, htaken, hpending⟩⟩ := hs.step_cases h
  · rw [htaken, hpending]
  · rw [htaken, hpending, pushed, List.append_nil, List.append_nil]

/-! ## Runs -/

theorem Placed.run (hs : s.Placed) (hrun : Machine.run LoopState.step s steps = .ok s') :
    s'.Placed ∧ s'.line = s.line ++ pushes s.threadId steps := by
  induction steps generalizing s with
  | nil =>
    obtain rfl := Except.ok.inj hrun
    exact ⟨hs, (List.append_nil _).symm⟩
  | cons i steps ih =>
    obtain ⟨t, ht, hrun⟩ := run_cons_eq_ok.mp hrun
    obtain ⟨hs', hline⟩ := ih (hs.step ht) hrun
    refine ⟨hs', ?_⟩
    rw [hline, hs.step_line ht, (hs.step_cases ht).1, pushes, pushes, List.flatMap_cons,
      List.append_assoc]

/-- Until the next exchange nothing is added to what was taken. -/
theorem Placed.run_taken (hs : s.Placed) (hswap : .swap ∉ steps)
    (hrun : Machine.run LoopState.step s steps = .ok s') : s'.taken = s.taken := by
  induction steps generalizing s with
  | nil =>
    obtain rfl := Except.ok.inj hrun
    rfl
  | cons i steps ih =>
    obtain ⟨t, ht, hrun⟩ := run_cons_eq_ok.mp hrun
    rw [ih (hs.step ht) (fun hmem ↦ hswap (List.mem_cons_of_mem i hmem)) hrun]
    obtain ⟨-, ⟨-, htaken, -⟩ | ⟨rfl, -⟩⟩ := hs.step_cases ht
    · exact htaken
    · exact absurd List.mem_cons_self hswap

/-- **Order.** At every moment what was executed, the rest of the batch and what is queued make up
all that was pushed, in the order of the lock, so that the functors of each thread are executed in
the order it queued them in; and what is pushed while a batch is executed is not executed in it: up
to the next exchange only what had been taken before is executed, and the rest stays queued. -/
theorem inOrder {threadId : ℕ} (hrun : Machine.run step (start threadId) steps = .ok s) :
    s.executed ++ s.functors ++ s.pendingFunctors = pushes threadId steps ∧
      (∀ thread, s.executed.filter (·.1 = thread) <+:
        (pushes threadId steps).filter (·.1 = thread)) ∧
      ∀ later s', .swap ∉ later → Machine.run step s later = .ok s' →
        s'.executed ++ s'.functors = s.executed ++ s.functors ∧
          s'.pendingFunctors = s.pendingFunctors ++ pushes s.threadId later := by
  obtain ⟨hs, hline⟩ := (placed_start threadId).run hrun
  refine ⟨hline, fun thread ↦ ?_, fun later s' hswap hlater ↦ ?_⟩
  · rw [show pushes threadId steps = s.line from hline.symm, line, taken, List.append_assoc]
    exact (List.prefix_append _ _).filter _
  · have htaken := hs.run_taken hswap hlater
    have hlater := (hs.run hlater).2
    rw [line, line, htaken, List.append_assoc] at hlater
    exact ⟨htaken, List.append_cancel_left hlater⟩

/-- What a functor queues, and what another thread queues meanwhile, is executed in the next
batch. -/
theorem inOrder_of_two :
    ∃ s, Machine.run step (start 0)
        [.queueInLoop 7 'a', .queued 7, .loop, .test, .pollReturns, .handleRead, .doPendingFunctors,
          .swap, .call, .queueInLoop 7 'b', .queueInLoop 0 'c', .queued 0, .queued 7, .returns,
          .destroyed, .test, .pollReturns, .doPendingFunctors, .swap, .call] = .ok s ∧
      s.executed ++ s.functors ++ s.pendingFunctors = [(7, 'a'), (7, 'b'), (0, 'c')] ∧
      s.executed = [(7, 'a'), (7, 'b')] := by
  have hrun : Machine.run step (start 0)
      [.queueInLoop 7 'a', .queued 7, .loop, .test, .pollReturns, .handleRead, .doPendingFunctors,
        .swap, .call, .queueInLoop 7 'b', .queueInLoop 0 'c', .queued 0, .queued 7, .returns,
        .destroyed, .test, .pollReturns, .doPendingFunctors, .swap, .call] = .ok _ := rfl
  exact ⟨_, hrun, (inOrder hrun).1, rfl⟩

end LoopState

end Twnl
