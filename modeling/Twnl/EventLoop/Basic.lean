import Twnl.Machine.Run
import Twnl.Poller.Epoll
import Twnl.Poller.Poll

/-!
# The loops of a process

A loop has a poller and two channels of its own: that of its timers and that by which other threads
wake it up. The constructor of the timers runs in the initialisers of the loop's members, and so
enables their channel *before* the constructor's body has set the masks of the process; the channel
for wake-ups is enabled after.

A `Process` has the masks, the loops in the order of their construction and, for each thread, its
loop. Its steps are constructions and destructions of loops and the operations of the channels of
their connections. What the kernel answers is in the step: the descriptors it hands out are not
descriptors that some loop still has.
-/

namespace Twnl

namespace EventLoop

/-- `EventLoop::Mode`: the kind of poller. -/
inductive Mode
  | POLL
  | EPOLL
  deriving DecidableEq, Repr

/-- `EventLoop::EpollMode`. -/
inductive EpollMode
  | LT
  | ET
  deriving DecidableEq, Repr

end EventLoop

/-- A poller of either kind. -/
inductive Poller
  | epoll (p : EpollPoller)
  | poll (p : PollPoller)

namespace Poller

def newDefaultPoller : EventLoop.Mode → Poller
  | .EPOLL => .epoll .new
  | .POLL => .poll .new

/-- Gives the poller and the channel with its index. -/
def updateChannel (k : Masks) : Poller → Channel → Except Fault (Poller × Channel)
  | epoll p, c => do
    let (updated, c') ← p.updateChannel k c
    .ok (epoll updated, c')
  | poll p, c => do
    let (updated, c') ← p.updateChannel k c
    .ok (poll updated, c')

/-- Gives the poller, the channel with its index and, if another channel is moved, that channel and
its index. -/
def removeChannel (k : Masks) : Poller → Channel → Except Fault (Poller × Channel × Option (ℕ × ℤ))
  | epoll p, c => do
    let (updated, c') ← p.removeChannel c
    .ok (epoll updated, c', none)
  | poll p, c => do
    let (updated, moved) ← p.removeChannel k c
    .ok (poll updated, c, moved)

end Poller

/-- A loop with the channels of its connections. Addresses are told apart within a loop. -/
structure EventLoop where
  threadId : ℕ
  poller : Poller
  timerChannel : Channel
  wakeupChannel : Channel
  channels : List Channel

namespace EventLoop

/-- `Channel::set_index`, by the address of the channel. -/
def setIndex (l : EventLoop) : Option (ℕ × ℤ) → EventLoop
  | none => l
  | some (ptr, i) =>
    { l with
      timerChannel := at' ptr i l.timerChannel
      wakeupChannel := at' ptr i l.wakeupChannel
      channels := l.channels.map (at' ptr i) }
where
  at' (ptr : ℕ) (i : ℤ) (c : Channel) : Channel := if c.ptr = ptr then { c with index := i } else c

/-- The body of the constructor sets the masks if the loop uses epoll. -/
def initMasks (statics : Masks) (mode : Mode) (emode : EpollMode) : Masks :=
  match mode, emode with
  | .EPOLL, .LT => Masks.initDefaultEvent .LT
  | .EPOLL, .ET => Masks.initDefaultEvent .ET
  | .POLL, _ => statics

/-- The registration of a new channel for reading. -/
def enableNew (k : Masks) (p : Poller) (ptr : ℕ) (fd : ℤ) : Except Fault (Poller × Channel) :=
  p.updateChannel k ((Channel.new ptr fd).enableReading k)

/-- The constructor. Gives the masks it leaves to the process, and the loop. -/
def new (statics : Masks) (loopInThisThread : Option ℕ) (thread : ℕ) (mode : Mode)
    (emode : EpollMode) (timerfd wakeupFd : ℤ) : Except Fault (Masks × EventLoop) := do
  -- the initialisers of the members, among them the constructor of `TimerQueue`
  let (registered, timerChannel) ← enableNew statics (Poller.newDefaultPoller mode) 0 timerfd
  -- the body
  match loopInThisThread with
  | some _ => .error .abort
  | none => do
    let (poller, wakeupChannel) ← enableNew (initMasks statics mode emode) registered 1 wakeupFd
    .ok (initMasks statics mode emode, ⟨thread, poller, timerChannel, wakeupChannel, []⟩)

def assertInLoopThread (l : EventLoop) (thread : ℕ) : Except Fault Unit :=
  if thread = l.threadId then .ok () else .error .abort

/-- A connection on the loop gets a channel. -/
def newChannel (l : EventLoop) (fd : ℤ) : EventLoop :=
  { l with channels := l.channels ++ [.new (l.channels.length + 2) fd] }

/-- One of the setters of a channel, with the update of the poller behind it. -/
def channelCall (k : Masks) (thread j : ℕ) (a : Channel.Call) (l : EventLoop) :
    Except Fault EventLoop :=
  match l.channels[j]? with
  | none => .error .impossible
  | some c => do
    l.assertInLoopThread thread
    let (poller, c') ← l.poller.updateChannel k (c.call k a)
    .ok { l with poller := poller, channels := l.channels.set j c' }

/-- `Channel::remove`. -/
def channelRemove (k : Masks) (thread j : ℕ) (l : EventLoop) : Except Fault EventLoop :=
  match l.channels[j]? with
  | none => .error .impossible
  | some c => do
    check (c.isNoneEvent k) .channelRemove
    l.assertInLoopThread thread
    let (poller, c', moved) ← l.poller.removeChannel k c
    .ok (setIndex { l with poller := poller, channels := l.channels.set j c' } moved)

end EventLoop

/-- A process. Of a loop that was destroyed only the place is left. -/
structure Process where
  statics : Masks
  loops : List (Option EventLoop)
  loopInThisThread : ℕ → Option ℕ

namespace Process

/-- A process as it starts. -/
def start : Process := ⟨.zero, [], fun _ ↦ none⟩

/-- Some loop has the descriptor for its own use. -/
def Internal (ps : Process) (fd : ℤ) : Prop :=
  ∃ o ∈ ps.loops, ∃ l ∈ o, l.timerChannel.fd = fd ∨ l.wakeupChannel.fd = fd

instance (ps : Process) : DecidablePred ps.Internal := fun _ ↦
  inferInstanceAs (Decidable (∃ o ∈ ps.loops, ∃ l ∈ o, _ ∨ _))

/-- What the kernel may answer when a new descriptor is asked for. -/
def Fresh (ps : Process) (fd : ℤ) : Prop := 0 ≤ fd ∧ ¬ps.Internal fd

instance (ps : Process) : DecidablePred ps.Fresh := fun _ ↦ inferInstanceAs (Decidable (_ ∧ _))

inductive Step
  | construct (thread : ℕ) (mode : EventLoop.Mode) (emode : EventLoop.EpollMode)
      (timerfd wakeupFd : ℤ)
  | destroy (thread i : ℕ)
  /-- A connection on the loop `i` gets a channel. -/
  | newChannel (i : ℕ) (fd : ℤ)
  /-- A setter of the channel `j` of the loop `i`. -/
  | channelCall (thread i j : ℕ) (a : Channel.Call)
  | channelRemove (thread i j : ℕ)
  deriving DecidableEq, Repr

/-- What is done to a loop, which must live. -/
def onLoop (ps : Process) (i : ℕ) (f : EventLoop → Except Fault EventLoop) :
    Except Fault Process :=
  match ps.loops[i]? with
  | none => .error .impossible
  | some none => .error .useAfterFree
  | some (some l) => do
    let l' ← f l
    .ok { ps with loops := ps.loops.set i (some l') }

def step (ps : Process) : Step → Except Fault Process
  | .construct thread mode emode timerfd wakeupFd =>
    if ps.Fresh timerfd ∧ ps.Fresh wakeupFd ∧ timerfd ≠ wakeupFd then do
      let (statics, l) ← EventLoop.new ps.statics (ps.loopInThisThread thread) thread mode emode
        timerfd wakeupFd
      .ok ⟨statics, ps.loops ++ [some l],
        Function.update ps.loopInThisThread thread (some ps.loops.length)⟩
    else .error .impossible
  | .destroy thread i =>
    match ps.loops[i]? with
    | none => .error .impossible
    | some none => .error .useAfterFree
    | some (some _) => .ok { ps with
        loops := ps.loops.set i none
        loopInThisThread := Function.update ps.loopInThisThread thread none }
  | .newChannel i fd =>
    if ps.Fresh fd then ps.onLoop i fun l ↦ .ok (l.newChannel fd) else .error .impossible
  | .channelCall thread i j a => ps.onLoop i (EventLoop.channelCall ps.statics thread j a)
  | .channelRemove thread i j => ps.onLoop i (EventLoop.channelRemove ps.statics thread j)

end Process

end Twnl
