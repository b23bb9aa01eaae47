import Mathlib.Data.List.Sort
import Mathlib.Logic.Function.Basic
import Twnl.Fault
import Twnl.Kernel
import Twnl.Machine.Run

/-!
# The timer queue

The queue owns its timers through bare pointers: those in the set `timers_`, those of the batch that
`handleRead` has taken out of it, and those whose insertion is a functor still queued. The heap says
of each address whether a timer lives there; a pointer that is followed after the release of its
timer is a fault. Addresses are not used twice, so that such a pointer is always seen to be one.

`handleRead` is several steps, since the callbacks it runs call the queue again: the batch is taken
(`handleRead`), a callback is entered (`next`) and returns (`callbackReturns`), and the descriptor
is set for the next deadline (`finish`). Between the last three, other threads may queue functors,
and inside a callback the loop's own thread may add and cancel timers. Times are nanoseconds.
-/

namespace Twnl

/-- `Timer`, but for its callback. -/
structure Timer where
  when : ℤ
  interval : ℤ
  repeats : Bool
  canceled : Bool
  deriving DecidableEq, Repr

namespace Timer

def new (when interval : ℤ) : Timer := ⟨when, interval, 0 < interval, false⟩

def expired (t : Timer) (now : ℤ) : Prop := t.when ≤ now

instance (t : Timer) (now : ℤ) : Decidable (t.expired now) := inferInstanceAs (Decidable (_ ≤ _))

def restart (t : Timer) : Except Fault Timer := do
  check (t.repeats = true) .timerRestart
  .ok { t with when := t.when + t.interval }

def cancel (t : Timer) : Except Fault Timer := do
  check (t.canceled = false) .timerCancel
  .ok { t with canceled := true }

end Timer

/-- `std::pair<Timestamp, Timer*>`. -/
abbrev Entry := ℤ × ℕ

/-- The order of pairs. -/
def Entry.le (a b : Entry) : Prop := a.1 < b.1 ∨ a.1 = b.1 ∧ a.2 ≤ b.2

instance : DecidableRel Entry.le := fun _ _ ↦ inferInstanceAs (Decidable (_ ∨ _))

/-- What there is at an address. -/
inductive Cell
  | unused
  | live (t : Timer)
  | released
  deriving DecidableEq, Repr

/-- `handleRead` while it runs: the time it read, the entry whose callback is running, and the
entries to come. -/
structure Batch where
  now : ℤ
  current : Option Entry
  rest : List Entry
  deriving DecidableEq, Repr

/-- The functors that calls from other threads queue. -/
inductive TimerFunctor
  | insert (when : ℤ) (timer : ℕ)
  | cancel (timer : ℕ)
  deriving DecidableEq, Repr

/-- `struct timespec`. -/
structure Timespec where
  tvSec : ℤ
  tvNsec : ℤ
  deriving DecidableEq, Repr

def Timespec.nanoseconds (v : Timespec) : ℤ := v.tvSec * 1000000000 + v.tvNsec

/-- The descriptor: when `timerfd_settime` was last called, with what value, and whether the
expiration was read since. Setting it discards an expiration that was not read. -/
structure Timerfd where
  setAt : ℤ
  itValue : Timespec
  wasRead : Bool
  deriving DecidableEq, Repr

namespace Timerfd

/-- The time it expires at. -/
def expiry (f : Timerfd) : ℤ := f.setAt + f.itValue.nanoseconds

def Readable (f : Timerfd) (now : ℤ) : Prop := f.expiry ≤ now ∧ f.wasRead = false

instance (f : Timerfd) (now : ℤ) : Decidable (f.Readable now) := inferInstanceAs (Decidable (_ ∧ _))

/-- A read before it expires gets nothing. -/
def read (f : Timerfd) (now : ℤ) : Timerfd :=
  if f.expiry ≤ now then { f with wasRead := true } else f

end Timerfd

structure TimerQueue where
  heap : ℕ → Cell
  /-- The addresses that were released, in order. -/
  released : List ℕ
  timers : List Entry
  timerfd : Option Timerfd
  batch : Option Batch
  pendingFunctors : List TimerFunctor

namespace TimerQueue

/-- A queue as its constructor leaves it. -/
def new : TimerQueue := ⟨fun _ ↦ .unused, [], [], none, none, []⟩

def withTimers (q : TimerQueue) (timers : List Entry) : TimerQueue := { q with timers := timers }

def withBatch (q : TimerQueue) (batch : Option Batch) : TimerQueue := { q with batch := batch }

def queueInLoop (q : TimerQueue) (f : TimerFunctor) : TimerQueue :=
  { q with pendingFunctors := q.pendingFunctors ++ [f] }

/-! ## The heap -/

/-- Follows a pointer. A pointer that no `new` has returned is not one the program has. -/
def deref (q : TimerQueue) (timer : ℕ) : Except Fault Timer :=
  match q.heap timer with
  | .live t => .ok t
  | .released => .error .useAfterFree
  | .unused => .error .impossible

def write (q : TimerQueue) (timer : ℕ) (t : Timer) : TimerQueue :=
  { q with heap := Function.update q.heap timer (.live t) }

/-- `new`, which returns an address where nothing was. -/
def alloc (q : TimerQueue) (timer : ℕ) (t : Timer) : Except Fault TimerQueue :=
  match q.heap timer with
  | .unused => .ok (q.write timer t)
  | .live _ | .released => .error .impossible

/-- `delete`. -/
def delete (q : TimerQueue) (timer : ℕ) : Except Fault TimerQueue :=
  match q.heap timer with
  | .live _ => .ok { q with
      heap := Function.update q.heap timer .released
      released := q.released ++ [timer] }
  | .released => .error .useAfterFree
  | .unused => .error .impossible

/-! ## The set and the descriptor -/

/-- `std::set::insert`, which leaves a set that has the element as it is. -/
def insert (q : TimerQueue) (e : Entry) : TimerQueue :=
  if e ∈ q.timers then q else q.withTimers (q.timers.orderedInsert Entry.le e)

/-- The time to wait, which is at least a millisecond. -/
def waitFromNow (now when : ℤ) : ℤ := if when - now < 1000000 then 1000000 else when - now

def durationFromNow (now when : ℤ) : Timespec :=
  ⟨(waitFromNow now when).tdiv 1000000000, (waitFromNow now when).tmod 1000000000⟩

def timerfdRead (q : TimerQueue) (now : ℤ) : TimerQueue :=
  { q with timerfd := q.timerfd.map (·.read now) }

/-- The clock is read and then `timerfd_settime` is called. No time is assumed to pass between the
two, so that both happen at `now`. -/
def timerfdSet (q : TimerQueue) (now when : ℤ) : TimerQueue :=
  { q with timerfd := some ⟨now, durationFromNow now when, false⟩ }

/-- Sets the descriptor for an entry if it is the first. -/
def setIfFirst (q : TimerQueue) (now : ℤ) (e : Entry) : TimerQueue :=
  if q.timers.head? = some e then q.timerfdSet now e.1 else q

/-! ## What runs in the loop -/

/-- The functor of `addTimer`. -/
def insertInLoop (q : TimerQueue) (now : ℤ) (e : Entry) : Except Fault TimerQueue := do
  check (e ∉ q.timers) .addTimer
  .ok ((q.insert e).setIfFirst now e)

/-- The functor of `cancelTimer`. -/
def cancelInLoop (q : TimerQueue) (timer : ℕ) : Except Fault TimerQueue := do
  let t ← q.deref timer
  let canceled ← t.cancel
  ((q.write timer canceled).withTimers (q.timers.erase (canceled.when, timer))).delete timer

/-- What `handleRead` does with an entry after its callback: a timer that repeats is inserted again,
any other is released. -/
def settle (q : TimerQueue) (timer : ℕ) : Except Fault TimerQueue := do
  let t ← q.deref timer
  if t.canceled = false ∧ t.repeats = true then do
    let restarted ← t.restart
    .ok ((q.write timer restarted).insert (restarted.when, timer))
  else q.delete timer

/-- The start of `handleRead`, with `getExpired`. -/
def handleRead (q : TimerQueue) (now : ℤ) : Except Fault TimerQueue :=
  match q.batch with
  | none => .ok (((q.timerfdRead now).withBatch
      (some ⟨now, none, q.timers.takeWhile fun e ↦ e.1 < now + 1⟩)).withTimers
      (q.timers.dropWhile fun e ↦ e.1 < now + 1))
  | some _ => .error .impossible

/-- The next entry of the batch: its callback is entered, unless it was canceled. -/
def next (q : TimerQueue) : Except Fault TimerQueue :=
  match q.batch with
  | some ⟨now, none, e :: rest⟩ => do
    let t ← q.deref e.2
    check (t.expired now) .timerExpired
    if t.canceled = false then .ok (q.withBatch (some ⟨now, some e, rest⟩))
    else (q.withBatch (some ⟨now, none, rest⟩)).settle e.2
  | some ⟨_, none, []⟩ | some ⟨_, some _, _⟩ | none => .error .impossible

def callbackReturns (q : TimerQueue) : Except Fault TimerQueue :=
  match q.batch with
  | some ⟨now, some e, rest⟩ => (q.withBatch (some ⟨now, none, rest⟩)).settle e.2
  | some ⟨_, none, _⟩ | none => .error .impossible

/-- The end of `handleRead`. -/
def finish (q : TimerQueue) (now : ℤ) : Except Fault TimerQueue :=
  match q.batch, q.timers with
  | some ⟨_, none, []⟩, [] => .ok (q.withBatch none)
  | some ⟨_, none, []⟩, e :: _ => .ok ((q.withBatch none).timerfdSet now e.1)
  | some ⟨_, none, _ :: _⟩, _ | some ⟨_, some _, _⟩, _ | none, _ => .error .impossible

/-- The destructor. -/
def destroy (q : TimerQueue) : Except Fault TimerQueue := do
  let emptied ← q.timers.foldlM (fun p e ↦ p.delete e.2) q
  .ok (emptied.withTimers [])

/-! ## Steps -/

inductive Step
  /-- A call of `addTimer`, which gets its timer at the given address. -/
  | addTimer (thread : Thread) (timer : ℕ) (when interval now : ℤ)
  | cancelTimer (thread : Thread) (timer : ℕ)
  /-- The functor at the head of the queue runs. -/
  | pending (now : ℤ)
  | handleRead (now : ℤ)
  | next
  | callbackReturns
  | finish (now : ℤ)
  deriving DecidableEq, Repr

/-- The loop's thread runs code of users: inside a callback, or outside of `handleRead`. -/
def inUserCode (q : TimerQueue) : Bool :=
  match q.batch with
  | some ⟨_, none, _⟩ => false
  | some ⟨_, some _, _⟩ | none => true

def runFunctor (now : ℤ) (q : TimerQueue) : TimerFunctor → Except Fault TimerQueue
  | .insert when timer => q.insertInLoop now (when, timer)
  | .cancel timer => q.cancelInLoop timer

def step (q : TimerQueue) : Step → Except Fault TimerQueue
  | .addTimer .loop timer when interval now =>
    if q.inUserCode then do
      let allocated ← q.alloc timer (.new when interval)
      allocated.insertInLoop now (when, timer)
    else .error .impossible
  | .addTimer .other timer when interval _ => do
    let allocated ← q.alloc timer (.new when interval)
    .ok (allocated.queueInLoop (.insert when timer))
  | .cancelTimer .loop timer => if q.inUserCode then q.cancelInLoop timer else .error .impossible
  | .cancelTimer .other timer => .ok (q.queueInLoop (.cancel timer))
  | .pending now =>
    match q.batch, q.pendingFunctors with
    | none, f :: fs => runFunctor now { q with pendingFunctors := fs } f
    | none, [] | some _, _ => .error .impossible
  | .handleRead now => q.handleRead now
  | .next => q.next
  | .callbackReturns => q.callbackReturns
  | .finish now => q.finish now

end TimerQueue

end Twnl
