import Twnl.TcpClient.Basic

/-!
# A connector on its loop

A `ConnectorSession` is a connector by itself, with what it has left with its loop: the registration
of its channel, timers for another attempt, and functors. Whoever owns it may start, stop and
restart it in any order, and destroy it.

A step is a handler or a call on the loop's thread, or a call from another thread; any of them may
come at any time. Sockets are told apart by their numbers, which are not used twice. Beside the
connector's own data there is a record of what it did: the sockets it made and what became of them,
and the timers whose callbacks ran or that were handed to `cancelTimer`.

A timer that is not pending is left alone by `cancelTimer`. The time a timer waits is left out.
-/

namespace Twnl

open Connector TcpClient

/-- The functors of a connector. -/
inductive ConnectorFunctor
  | startInLoop
  | resetChannel
  | cancelTimer (timer : Option ℕ)
  deriving DecidableEq, Repr

structure ConnectorSession where
  connector : Connector
  /-- The sockets whose channels the poller has. -/
  poller : List ℤ
  /-- The timers that wait for their time. -/
  timers : List ℕ
  /-- Those that `handleRead` has taken out of the set and not run yet. -/
  due : List ℕ
  /-- `runAfter` has returned the timers below it. -/
  nextTimer : ℕ
  pendingFunctors : List ConnectorFunctor
  destroyed : Bool
  /-- The sockets that were made, those that were closed, and those that were handed over. -/
  created : List ℤ
  closed : List ℤ
  handedOver : List ℤ
  /-- The calls of `restart`. -/
  restarts : ℕ
  /-- The timers whose callbacks ran, and those that were passed to `cancelTimer`. -/
  fired : List ℕ
  passed : List ℕ
  /-- A `stop` came after the last `runAfter`. -/
  stopped : Bool
  deriving DecidableEq, Repr

namespace ConnectorSession

/-- A connector as its constructor leaves it. -/
def new : ConnectorSession where
  connector := ⟨false, .kDisconnected, none, kInitRetryDelayMs, none⟩
  poller := []
  timers := []
  due := []
  nextTimer := 0
  pendingFunctors := []
  destroyed := false
  created := []
  closed := []
  handedOver := []
  restarts := 0
  fired := []
  passed := []
  stopped := false

def queueInLoop (s : ConnectorSession) (f : ConnectorFunctor) : ConnectorSession :=
  { s with pendingFunctors := s.pendingFunctors ++ [f] }

/-- `sockets::close`. -/
def close (s : ConnectorSession) (sockfd : ℤ) : ConnectorSession :=
  { s with closed := s.closed ++ [sockfd] }

def setState (s : ConnectorSession) (state : States) : ConnectorSession :=
  { s with connector := { s.connector with state := state } }

def setConnect (s : ConnectorSession) (connect : Bool) : ConnectorSession :=
  { s with connector := { s.connector with connect := connect } }

/-- The body of `TimerQueue::cancelTimer`. -/
def cancelInLoop (s : ConnectorSession) (timer : Option ℕ) : ConnectorSession :=
  match timer with
  | none => s
  | some id => { s with timers := s.timers.erase id }

/-- `EventLoop::cancelTimer`, for `timer_`. -/
def cancelTimer (s : ConnectorSession) (thread : Thread) : ConnectorSession :=
  let passed := { s with passed := s.passed ++ s.connector.timer.toList, stopped := true }
  match thread with
  | .loop => passed.cancelInLoop s.connector.timer
  | .other => passed.queueInLoop (.cancelTimer s.connector.timer)

/-- `EventLoop::runAfter`, for another attempt after a delay that is doubled up to a maximum. -/
def runAfter (s : ConnectorSession) : ConnectorSession :=
  { s with
    timers := s.timers ++ [s.nextTimer]
    nextTimer := s.nextTimer + 1
    stopped := false
    connector := { s.connector with
      timer := some s.nextTimer
      retryDelayMs := min (s.connector.retryDelayMs * 2) kMaxRetryDelayMs } }

def retry (s : ConnectorSession) (sockfd : ℤ) : ConnectorSession :=
  if s.connector.connect then ((s.close sockfd).setState .kDisconnected).runAfter
  else (s.close sockfd).setState .kDisconnected

def connecting (s : ConnectorSession) (sockfd : ℤ) : Except Fault ConnectorSession := do
  check (s.connector.channel = none) .connecting
  .ok { s with
    connector := { s.connector with state := .kConnecting, channel := some ⟨sockfd, true⟩ }
    poller := s.poller ++ [sockfd] }

/-- `Connector::connect`. -/
def connect (s : ConnectorSession) (a : Attempt) : Except Fault ConnectorSession :=
  if a.sockfd ∈ s.created then .error .impossible
  else
    let made := { s with created := s.created ++ [a.sockfd] }
    match a.errno with
    | none | some .EINPROGRESS | some .EINTR | some .EISCONN => made.connecting a.sockfd
    | some .EAGAIN | some .EADDRINUSE | some .EADDRNOTAVAIL | some .ECONNREFUSED
    | some .ENETUNREACH => .ok (made.retry a.sockfd)
    | some .EACCES | some .EPERM | some .EAFNOSUPPORT | some .EALREADY | some .EBADF
    | some .EFAULT | some .ENOTSOCK => .ok (made.close a.sockfd)
    | some .EPIPE | some .ECONNRESET | some (.other _) => .ok (made.close a.sockfd)

def startInLoop (s : ConnectorSession) (a : Attempt) : Except Fault ConnectorSession := do
  check (s.connector.state = .kDisconnected) .startInLoop
  if s.connector.connect then s.connect a else .ok s

def start (s : ConnectorSession) (thread : Thread) (a : Attempt) : Except Fault ConnectorSession :=
  match thread with
  | .loop => (s.setConnect true).startInLoop a
  | .other => .ok ((s.setConnect true).queueInLoop .startInLoop)

def restart (s : ConnectorSession) (a : Attempt) : Except Fault ConnectorSession :=
  startInLoop { s with
    restarts := s.restarts + 1
    connector := { s.connector with
      state := .kDisconnected, retryDelayMs := kInitRetryDelayMs, connect := true } } a

def stop (s : ConnectorSession) (thread : Thread) : ConnectorSession :=
  (s.setConnect false).cancelTimer thread

/-- The channel, which `channel_` points to. -/
def removeAndResetChannel (s : ConnectorSession) : Except Fault (ConnectorSession × ℤ) :=
  match s.connector.channel with
  | some c => .ok ({ s.queueInLoop .resetChannel with
      connector := { s.connector with channel := some { c with registered := false } }
      poller := s.poller.erase c.fd }, c.fd)
  | none => .error .nullPointer

def resetChannel (s : ConnectorSession) : ConnectorSession :=
  { s with connector := { s.connector with channel := none } }

/-- `newConnectionCallback_`. -/
def newConnection (s : ConnectorSession) (sockfd : ℤ) : ConnectorSession :=
  { s with handedOver := s.handedOver ++ [sockfd] }

/-- `Connector::handleWrite`, with the socket's `SO_ERROR` and whether it is connected to itself. -/
def handleWrite (s : ConnectorSession) (err : ℤ) (isSelfConnect : Bool) :
    Except Fault ConnectorSession :=
  match s.connector.state with
  | .kConnecting => do
    let (removed, sockfd) ← s.removeAndResetChannel
    if err ≠ 0 then .ok (removed.retry sockfd)
    else if isSelfConnect then .ok (removed.retry sockfd)
    else if removed.connector.connect then
      .ok ((removed.setState .kConnected).newConnection sockfd)
    else .ok ((removed.setState .kConnected).close sockfd)
  | .kDisconnected => .ok s
  | .kConnected => .error (.assertion .connectorHandleWrite)

def handleError (s : ConnectorSession) : Except Fault ConnectorSession := do
  check (s.connector.state = .kConnecting) .connectorHandleError
  let (removed, sockfd) ← s.removeAndResetChannel
  .ok (removed.retry sockfd)

/-- `Channel::handleEvent`, for a channel of the connector, which has a callback for errors and one
for writing. -/
def handleEvent (s : ConnectorSession) (revents : Mask) (err : ℤ) (isSelfConnect : Bool) :
    Except Fault ConnectorSession := do
  let handled ← if revents &&& EPOLLERR ≠ 0 then s.handleError else .ok s
  if revents &&& EPOLLOUT ≠ 0 then handled.handleWrite err isSelfConnect else .ok handled

/-- What both callbacks preserve, an event preserves. -/
theorem handleEvent_outcome {I : ConnectorSession → Prop} {E : Fault → Prop}
    {s : ConnectorSession} {revents : Mask} {err : ℤ} {isSelfConnect : Bool} (h : I s)
    (herror : Outcome s.handleError I E)
    (hwrite : ∀ r, I r → Outcome (r.handleWrite err isSelfConnect) I E) :
    Outcome (s.handleEvent revents err isSelfConnect) I E := by
  have hrest : ∀ r, I r → Outcome
      (if revents &&& EPOLLOUT ≠ 0 then r.handleWrite err isSelfConnect else .ok r) I E := by
    intro r hr
    split
    · exact hwrite r hr
    · exact hr
  rw [handleEvent]
  split
  · exact herror.bind hrest
  · exact hrest s h

/-- The destructor. -/
def destroy (s : ConnectorSession) (thread : Thread) : Except Fault ConnectorSession := do
  check ((s.cancelTimer thread).connector.channel = none) .connectorDestructor
  .ok { s.cancelTimer thread with destroyed := true }

def runFunctor (s : ConnectorSession) (a : Attempt) :
    ConnectorFunctor → Except Fault ConnectorSession
  | .startInLoop => s.startInLoop a
  | .resetChannel => .ok s.resetChannel
  | .cancelTimer timer => .ok (s.cancelInLoop timer)

/-! ## Steps -/

inductive Step
  | start (thread : Thread) (a : Attempt)
  | stop (thread : Thread)
  | restart (a : Attempt)
  /-- An event of a socket that the poller has. -/
  | handleEvent (sockfd : ℤ) (revents : Mask) (err : ℤ) (isSelfConnect : Bool)
  /-- A timer is taken out of the set, with the others that are due. -/
  | expires (timer : ℕ)
  /-- Its callback runs. -/
  | fires (timer : ℕ) (a : Attempt)
  /-- The functor at the head of the queue runs. -/
  | pending (a : Attempt)
  | destroy (thread : Thread)
  deriving DecidableEq, Repr

/-- What a step does before the connector is destroyed. -/
def live (s : ConnectorSession) : Step → Except Fault ConnectorSession
  | .start thread a => s.start thread a
  | .stop thread => .ok (s.stop thread)
  | .restart a => s.restart a
  | .handleEvent sockfd revents err isSelfConnect =>
    if sockfd ∈ s.poller then
      if ∃ c ∈ s.connector.channel, c.fd = sockfd then s.handleEvent revents err isSelfConnect
      else .error .useAfterFree
    else .error .impossible
  | .expires timer =>
    if timer ∈ s.timers then
      .ok { s with timers := s.timers.erase timer, due := s.due ++ [timer] }
    else .error .impossible
  | .fires timer a =>
    if timer ∈ s.due then
      startInLoop { s with due := s.due.erase timer, fired := s.fired ++ [timer] } a
    else .error .impossible
  | .pending a =>
    match s.pendingFunctors with
    | f :: fs => runFunctor { s with pendingFunctors := fs } a f
    | [] => .error .impossible
  | .destroy thread => s.destroy thread

def step (s : ConnectorSession) (i : Step) : Except Fault ConnectorSession :=
  if s.destroyed = false then s.live i else .error .impossible

end ConnectorSession

end Twnl
