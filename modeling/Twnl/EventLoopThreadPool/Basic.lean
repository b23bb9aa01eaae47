import Twnl.Printf

/-!
# A pool of loops

A pool has a base loop and, once it is started, a loop in a thread of its own for each of the
threads that were asked for. The loops are whatever `EventLoopThread::startLoop` returns.

All calls but `setThreadNum` have to come from the thread of the base loop. `start` goes on in
steps, one for each thread that it makes: its loop compares with `numThreads_` again each time, and
`setThreadNum` may be called meanwhile, by the callback that the new thread runs or by any other
thread. The other calls cannot come in between, since the thread they have to come from is in
`start`.
-/

namespace Twnl

/-- What stops a call of the pool. -/
inductive PoolFault
  /-- The asserts that the pool was not started, and that it was. -/
  | started
  | notStarted
  /-- `EventLoop::abortNotInLoopThread`. -/
  | notInLoopThread
  /-- A subscript behind the end of the vector. -/
  | outOfRange
  /-- What the thread of the base loop cannot do in the middle of `start`. -/
  | impossible
  deriving DecidableEq, Repr

structure EventLoopThreadPool (L : Type) where
  baseLoop : L
  name : List Char
  started : Bool
  numThreads : ℤ
  next : ℤ
  /-- The threads have their names. -/
  threads : List (List Char)
  loops : List L
  deriving DecidableEq, Repr

namespace EventLoopThreadPool

variable {L : Type}

/-- The constructor. -/
def new (baseLoop : L) (name : List Char) : EventLoopThreadPool L where
  baseLoop := baseLoop
  name := name
  started := false
  numThreads := 0
  next := 0
  threads := []
  loops := []

def setThreadNum (p : EventLoopThreadPool L) (numThreads : Int32) : EventLoopThreadPool L :=
  { p with numThreads := numThreads.toInt }

/-- `EventLoop::assertInLoopThread` of the base loop. -/
def assertInLoopThread (inLoop : Bool) : Except PoolFault Unit :=
  if inLoop then .ok () else .error .notInLoopThread

def assertStopped (p : EventLoopThreadPool L) : Except PoolFault Unit :=
  if p.started then .error .started else .ok ()

def assertStarted (p : EventLoopThreadPool L) : Except PoolFault Unit :=
  if p.started then .ok () else .error .notStarted

/-- The conversion of an `int` to `size_t`. -/
def castSize (n : ℤ) : ℕ := (n % 2 ^ 64).toNat

/-- `loops_[i]`. -/
def loopAt (p : EventLoopThreadPool L) (i : ℕ) : Except PoolFault L :=
  match p.loops[i]? with
  | some loop => .ok loop
  | none => .error .outOfRange

/-- The name of the thread with that index, for which the name of the pool is taken as a C string. -/
def threadName (p : EventLoopThreadPool L) (i : ℤ) : List Char :=
  snprintf (p.name.length + 32) (cStr p.name ++ decimal i)

def getNextLoop (p : EventLoopThreadPool L) (inLoop : Bool) :
    Except PoolFault (L × EventLoopThreadPool L) := do
  assertInLoopThread inLoop
  p.assertStarted
  if p.loops = [] then .ok (p.baseLoop, p)
  else
    let loop ← p.loopAt (castSize p.next)
    let next := increment p.next
    .ok (loop, { p with next := if p.loops.length ≤ castSize next then 0 else next })

/-- There is no assert that the pool was started. -/
def getLoopForHash (p : EventLoopThreadPool L) (inLoop : Bool) (hashCode : ℕ) :
    Except PoolFault L := do
  assertInLoopThread inLoop
  if p.loops = [] then .ok p.baseLoop else p.loopAt (hashCode % p.loops.length)

def getAllLoops (p : EventLoopThreadPool L) (inLoop : Bool) : Except PoolFault (List L) := do
  assertInLoopThread inLoop
  p.assertStarted
  if p.loops = [] then .ok [p.baseLoop] else .ok p.loops

end EventLoopThreadPool

/-! ## Calls from all threads -/

/-- A pool, and where `start` is. -/
structure PoolSession (L : Type) where
  pool : EventLoopThreadPool L
  /-- The index of the loop in `start`, and whether there is a callback. -/
  starting : Option (ℤ × Bool)
  /-- The loops that the callback was called with. -/
  initialized : List L
  /-- The loops that `getNextLoop` returned. -/
  given : List L
  deriving DecidableEq, Repr

namespace PoolSession

variable {L : Type}

def new (baseLoop : L) (name : List Char) : PoolSession L := ⟨.new baseLoop name, none, [], []⟩

inductive Step (L : Type)
  | setThreadNum (numThreads : Int32)
  | start (inLoop callback : Bool)
  /-- `start` makes one more thread, whose loop this is. -/
  | spawns (loop : L)
  /-- `start` returns. -/
  | returns
  | getNextLoop (inLoop : Bool)
  | getLoopForHash (inLoop : Bool) (hashCode : ℕ)
  | getAllLoops (inLoop : Bool)
  deriving DecidableEq, Repr

/-- `start` up to its loop. -/
def begin (s : PoolSession L) (inLoop callback : Bool) : Except PoolFault (PoolSession L) := do
  s.pool.assertStopped
  EventLoopThreadPool.assertInLoopThread inLoop
  .ok { s with pool := { s.pool with started := true }, starting := some (0, callback) }

/-- One turn of the loop in `start`. -/
def spawn (s : PoolSession L) (loop : L) : Except PoolFault (PoolSession L) :=
  match s.starting with
  | some (i, callback) =>
    if i < s.pool.numThreads then
      .ok { s with
        pool := { s.pool with
          threads := s.pool.threads ++ [s.pool.threadName i]
          loops := s.pool.loops ++ [loop] }
        starting := some (increment i, callback)
        -- the new thread calls it before `startLoop` returns
        initialized := if callback then s.initialized ++ [loop] else s.initialized }
    else .error .impossible
  | none => .error .impossible

/-- `start` behind its loop. -/
def finish (s : PoolSession L) : Except PoolFault (PoolSession L) :=
  match s.starting with
  | some (i, callback) =>
    if i < s.pool.numThreads then .error .impossible
    else
      .ok { s with
        starting := none
        initialized := if s.pool.numThreads = 0 ∧ callback = true
          then s.initialized ++ [s.pool.baseLoop] else s.initialized }
  | none => .error .impossible

/-- Whether a call can come: the thread of the base loop is in `start` while that goes on. -/
def Comes (s : PoolSession L) (inLoop : Bool) : Prop := inLoop = true → s.starting = none

instance (s : PoolSession L) (inLoop : Bool) : Decidable (s.Comes inLoop) :=
  inferInstanceAs (Decidable (_ → _))

def step (s : PoolSession L) : Step L → Except PoolFault (PoolSession L)
  | .setThreadNum numThreads => .ok { s with pool := s.pool.setThreadNum numThreads }
  | .start inLoop callback =>
    if s.Comes inLoop then s.begin inLoop callback else .error .impossible
  | .spawns loop => s.spawn loop
  | .returns => s.finish
  | .getNextLoop inLoop =>
    if s.Comes inLoop then do
      let (loop, pool) ← s.pool.getNextLoop inLoop
      .ok { s with pool := pool, given := s.given ++ [loop] }
    else .error .impossible
  | .getLoopForHash inLoop hashCode =>
    if s.Comes inLoop then do
      let _ ← s.pool.getLoopForHash inLoop hashCode
      .ok s
    else .error .impossible
  | .getAllLoops inLoop =>
    if s.Comes inLoop then do
      let _ ← s.pool.getAllLoops inLoop
      .ok s
    else .error .impossible

end PoolSession

end Twnl
