import Twnl.EventLoop.Queue

/-!
# A loop in a thread of its own

An `EventLoopThread` has a pointer to a loop that another object owns: the loop is a local variable
of `threadFunc`, which the spawned thread runs. The owner gets the pointer from `startLoop` and, in
the destructor, asks the loop to quit and joins the thread.

The two threads go on independently. Each access to `loop_` and to `quit_` is a step of its own, so
that the destructor reads `loop_` twice, once to compare it with null and once to follow it; the
loop goes through the steps that any loop does. What is done under the lock is one step.
-/

namespace Twnl

/-- Where the owner is. -/
inductive Owner
  | idle
  /-- In `startLoop`, waiting for `loop_`; and with the lock released, about to return it. -/
  | waiting
  | returning
  /-- What `startLoop` returned is not null. -/
  | running (loop : Bool)
  /-- In the destructor, at the comparison of `loop_` with null; and at the call of `quit`. -/
  | testing
  | following
  /-- In `EventLoop::quit`, before and after `quit_` is set. -/
  | quitting
  | waking
  /-- In `join`, having called `quit` or not. -/
  | joining (quit : Bool)
  | gone
  deriving DecidableEq, Repr

/-- Where the spawned thread is in `threadFunc`. -/
inductive Spawned
  | unborn
  /-- In the callback, with the loop constructed. -/
  | callback
  /-- About to call `loop`, with `loop_` set. -/
  | calling
  | looping
  /-- About to set `loop_` to null. -/
  | clearing
  /-- At the end of the scope of the loop. -/
  | destroying
  | finished
  deriving DecidableEq, Repr

/-- An `EventLoopThread`, its two threads and the loop. -/
structure EventLoopThread (α : Type) where
  started : Bool
  /-- `loop_` is not null. -/
  loop : Bool
  eventLoop : LoopState α
  owner : Owner
  spawned : Spawned
  deriving DecidableEq, Repr

namespace EventLoopThread

variable {α : Type}

/-- The constructor. -/
def new (threadId : ℕ) : EventLoopThread α := ⟨false, false, .start threadId, .idle, .unborn⟩

inductive Step (α : Type)
  | startLoop
  /-- The owner finds `loop_` set, and leaves the lock. -/
  | awaits
  | returns
  | destructs
  /-- `if (loop_ != nullptr)`. -/
  | tests
  /-- `loop_->`. -/
  | follows
  /-- `quit_ = true`. -/
  | stores
  | wakes
  | joins
  /-- The spawned thread leaves the callback and sets `loop_`. -/
  | publishes
  /-- A step of the loop: `EventLoop::loop` is called, goes on, or calls user code. -/
  | loops (i : LoopState.Step α)
  | clears
  | destroys
  deriving DecidableEq, Repr

/-- In user code the spawned thread may call what it likes but `loop`; from other threads `quit` is
called by the destructor alone. -/
def Called (l : LoopState α) : LoopState.Step α → Prop
  | .loop => False
  | .quit thread => thread = l.threadId
  | .test | .pollReturns | .handleRead | .doPendingFunctors | .swap | .call | .returns | .destroyed
  | .queueInLoop _ _ | .queued _ | .runInLoop _ _ | .wakeup _ => True

instance (l : LoopState α) : DecidablePred (Called l)
  | .loop => inferInstanceAs (Decidable False)
  | .quit _ => inferInstanceAs (Decidable (_ = _))
  | .test | .pollReturns | .handleRead | .doPendingFunctors | .swap | .call | .returns | .destroyed
  | .queueInLoop _ _ | .queued _ | .runInLoop _ _ | .wakeup _ => inferInstanceAs (Decidable True)

/-- A step of the loop while the spawned thread is in the callback or in `loop`. -/
def loops (m : EventLoopThread α) (i : LoopState.Step α) : Except Fault (EventLoopThread α) :=
  match m.spawned with
  | .callback =>
    if Called m.eventLoop i then do
      let eventLoop ← m.eventLoop.step i
      .ok { m with eventLoop := eventLoop }
    else .error .impossible
  | .calling =>
    match i with
    | .loop => do
      let eventLoop ← m.eventLoop.step .loop
      .ok { m with eventLoop := eventLoop, spawned := .looping }
    | _ => .error .impossible
  | .looping =>
    if Called m.eventLoop i then do
      let eventLoop ← m.eventLoop.step i
      -- `loop` returns when the test finds `quit_` set
      .ok { m with
        eventLoop := eventLoop
        spawned := if eventLoop.phase = .outside then .clearing else .looping }
    else .error .impossible
  | .unborn | .clearing | .destroying | .finished => .error .impossible

def step (m : EventLoopThread α) : Step α → Except Fault (EventLoopThread α)
  | .startLoop =>
    match m.owner with
    | .idle | .running _ => do
      check (m.started = false) .startLoop
      .ok { m with started := true, owner := .waiting, spawned := .callback }
    | _ => .error .impossible
  | .awaits =>
    if m.owner = .waiting ∧ m.loop = true then .ok { m with owner := .returning }
    else .error .impossible
  | .returns =>
    if m.owner = .returning then .ok { m with owner := .running m.loop } else .error .impossible
  | .destructs =>
    match m.owner with
    | .idle | .running _ => .ok { m with owner := if m.started then .testing else .gone }
    | _ => .error .impossible
  | .tests =>
    if m.owner = .testing then
      .ok { m with owner := if m.loop then .following else .joining false }
    else .error .impossible
  | .follows =>
    if m.owner = .following then
      if m.loop then .ok { m with owner := .quitting } else .error .nullPointer
    else .error .impossible
  | .stores =>
    if m.owner = .quitting then
      if m.spawned = .finished then .error .useAfterFree
      else .ok { m with eventLoop := { m.eventLoop with quit := true }, owner := .waking }
    else .error .impossible
  | .wakes =>
    if m.owner = .waking then
      if m.spawned = .finished then .error .useAfterFree
      else .ok { m with eventLoop := m.eventLoop.wakeup, owner := .joining true }
    else .error .impossible
  | .joins =>
    match m.owner with
    | .joining _ =>
      if m.spawned = .finished then .ok { m with owner := .gone } else .error .impossible
    | _ => .error .impossible
  | .publishes =>
    if m.spawned = .callback ∧ m.eventLoop.Free m.eventLoop.threadId then
      .ok { m with loop := true, spawned := .calling }
    else .error .impossible
  | .loops i => m.loops i
  | .clears =>
    -- without the lock
    if m.spawned = .clearing then .ok { m with loop := false, spawned := .destroying }
    else .error .impossible
  | .destroys =>
    if m.spawned = .destroying then do
      check (m.eventLoop.looping = false) .eventLoopDestructor
      .ok { m with spawned := .finished }
    else .error .impossible

end EventLoopThread

end Twnl
