import Twnl.Channel.Basic
import Twnl.Fault
import Twnl.Kernel
import Twnl.Machine.Run
import Twnl.Printf

/-!
# A client on its loop

A `ClientSession` is a client with its connector and what they have left with their loop: timers for
another attempt, and functors. Everything happens on the loop's thread. Connections are numbered as
they are made.

## An iteration of the loop

Events are dispatched first: those of the connector's channel, expired timers, and those of the
connection, of which there are none before the poll that follows its registration. Then the functors
that are queued by then run, in their order, and those that are queued meanwhile stay for the next
iteration. `Phase` says which of them is under way.

## Callbacks

The connection callback runs when a connection is established and when it closes, and is left by
`callbackReturns`; in between, and at any other time, users call the client.

## Timers

The time a timer waits is left out: it may expire at any time. `TimerQueue::handleRead` takes all
that have expired out of the set, those of users among them, and then calls one after another; what
is `due` is what it has taken out and not called yet. Until it is through there are no other events.
A timer that is canceled when it is not in the set is left alone.
-/

namespace Twnl

namespace Connector

/-- `Connector::States`. -/
inductive States
  | kDisconnected
  | kConnecting
  | kConnected
  deriving DecidableEq, Repr

/-- The channel of an attempt, and whether the poller has it. -/
structure AttemptChannel where
  fd : ℤ
  registered : Bool
  deriving DecidableEq, Repr

end Connector

open Connector

/-- A connector. No timer is set before its first `retry`. -/
structure Connector where
  connect : Bool
  state : States
  channel : Option AttemptChannel
  retryDelayMs : ℕ
  timer : Option ℕ
  deriving DecidableEq, Repr

def kMaxRetryDelayMs : ℕ := 30 * 1000

def kInitRetryDelayMs : ℕ := 50

/-- A client. Its connection is that with the number, of those that were made. -/
structure TcpClient where
  retry : Bool
  connect : Bool
  nextConnId : ℤ
  connection : Option ℕ
  deriving DecidableEq, Repr

namespace TcpClient

/-- The functors of the client, its connector and its connections. -/
inductive ClientFunctor
  | resetChannel
  | forceClose (id : ℕ)
  | connectDestroyed (id : ℕ)
  deriving DecidableEq, Repr

/-- What the loop is doing: dispatching events, or running the functors of this iteration, of which
some are left. -/
inductive Phase
  | dispatch
  | functors (left : ℕ)
  deriving DecidableEq, Repr

/-- The connection callback that is running: for a connection that is up, or one that is down. -/
inductive Callback
  | up (id : ℕ)
  | down (id : ℕ)
  deriving DecidableEq, Repr

structure ClientSession where
  connector : Connector
  client : TcpClient
  /-- The pending timers that will run `startInLoop`, and those of them that have expired. -/
  timers : List ℕ
  due : List ℕ
  nextTimer : ℕ
  pendingFunctors : List ClientFunctor
  phase : Phase
  callback : Option Callback
  /-- The sockets that are being connected. -/
  attempts : List ℤ
  /-- The connections are those below it. -/
  opened : ℕ
  /-- The connections that are up. -/
  established : List ℕ
  /-- Those that were up at the last poll. -/
  polled : List ℕ
  /-- The sockets that the connector closed. -/
  closed : List ℤ
  deriving DecidableEq, Repr

/-- A socket that `connect` is called for, with the `errno` it fails with, if it fails. -/
structure Attempt where
  sockfd : ℤ
  errno : Option Errno
  deriving DecidableEq, Repr

namespace ClientSession

/-- A client as its constructor leaves it. -/
def start : ClientSession where
  connector := ⟨false, .kDisconnected, none, kInitRetryDelayMs, none⟩
  client := ⟨false, true, 1, none⟩
  timers := []
  due := []
  nextTimer := 0
  pendingFunctors := []
  phase := .dispatch
  callback := none
  attempts := []
  opened := 0
  established := []
  polled := []
  closed := []

def queueInLoop (s : ClientSession) (f : ClientFunctor) : ClientSession :=
  { s with pendingFunctors := s.pendingFunctors ++ [f] }

/-- `EventLoop::cancelTimer`. -/
def cancelTimer (s : ClientSession) (timer : Option ℕ) : ClientSession :=
  match timer with
  | none => s
  | some id => { s with timers := s.timers.erase id }

/-- `sockets::close`. -/
def close (s : ClientSession) (sockfd : ℤ) : ClientSession :=
  { s with closed := s.closed ++ [sockfd] }

def setState (s : ClientSession) (state : States) : ClientSession :=
  { s with connector := { s.connector with state := state } }

def setConnect (s : ClientSession) (connect : Bool) : ClientSession :=
  { s with connector := { s.connector with connect := connect } }

/-- `EventLoop::runAfter`, for another attempt after a delay that is doubled up to a maximum. -/
def runAfter (s : ClientSession) : ClientSession :=
  { s with
    timers := s.timers ++ [s.nextTimer]
    nextTimer := s.nextTimer + 1
    connector := { s.connector with
      timer := some s.nextTimer
      retryDelayMs := min (s.connector.retryDelayMs * 2) kMaxRetryDelayMs } }

/-! ## The connector -/

def retry (s : ClientSession) (sockfd : ℤ) : ClientSession :=
  if s.connector.connect then ((s.close sockfd).setState .kDisconnected).runAfter
  else (s.close sockfd).setState .kDisconnected

def connecting (s : ClientSession) (sockfd : ℤ) : Except Fault ClientSession := do
  check (s.connector.channel = none) .connecting
  .ok { s with
    connector := { s.connector with state := .kConnecting, channel := some ⟨sockfd, true⟩ }
    attempts := s.attempts ++ [sockfd] }

def connect (s : ClientSession) (a : Attempt) : Except Fault ClientSession :=
  match a.errno with
  | none | some .EINPROGRESS | some .EINTR | some .EISCONN => s.connecting a.sockfd
  | some .EAGAIN | some .EADDRINUSE | some .EADDRNOTAVAIL | some .ECONNREFUSED
  | some .ENETUNREACH => .ok (s.retry a.sockfd)
  | some .EACCES | some .EPERM | some .EAFNOSUPPORT | some .EALREADY | some .EBADF | some .EFAULT
  | some .ENOTSOCK => .ok (s.close a.sockfd)
  | some .EPIPE | some .ECONNRESET | some (.other _) => .ok (s.close a.sockfd)

def startInLoop (s : ClientSession) (a : Attempt) : Except Fault ClientSession := do
  check (s.connector.state = .kDisconnected) .startInLoop
  if s.connector.connect then s.connect a else .ok s

/-- `Connector::start`, on the loop's thread. -/
def connectorStart (s : ClientSession) (a : Attempt) : Except Fault ClientSession :=
  (s.setConnect true).startInLoop a

def restart (s : ClientSession) (a : Attempt) : Except Fault ClientSession :=
  startInLoop { s with connector := { s.connector with
    state := .kDisconnected, retryDelayMs := kInitRetryDelayMs, connect := true } } a

/-- `Connector::stop`. -/
def connectorStop (s : ClientSession) : ClientSession :=
  (s.setConnect false).cancelTimer s.connector.timer

/-- `Connector::removeAndResetChannel`, for the channel of the attempt. -/
def removeAndResetChannel (s : ClientSession) (c : AttemptChannel) : ClientSession :=
  { s.queueInLoop .resetChannel with
    connector := { s.connector with channel := some { c with registered := false } }
    attempts := s.attempts.erase c.fd }

def resetChannel (s : ClientSession) : ClientSession :=
  { s with connector := { s.connector with channel := none } }

/-! ## The client -/

/-- `TcpClient::newConnection`, up to the connection callback. -/
def newConnection (s : ClientSession) : ClientSession :=
  { s with
    client := { s.client with
      nextConnId := increment s.client.nextConnId, connection := some s.opened }
    opened := s.opened + 1
    established := s.established ++ [s.opened]
    callback := some (.up s.opened) }

/-- `Connector::handleWrite`, with the socket's `SO_ERROR` and whether it is connected to itself. -/
def handleWrite (s : ClientSession) (err : ℤ) (isSelfConnect : Bool) : Except Fault ClientSession :=
  match s.connector.state, s.connector.channel with
  | .kConnecting, some c =>
    if err ≠ 0 then .ok ((s.removeAndResetChannel c).retry c.fd)
    else if isSelfConnect then .ok ((s.removeAndResetChannel c).retry c.fd)
    else if s.connector.connect then
      .ok ((s.removeAndResetChannel c).setState .kConnected).newConnection
    else .ok (((s.removeAndResetChannel c).setState .kConnected).close c.fd)
  | .kConnecting, none => .error .nullPointer
  | .kDisconnected, _ => .ok s
  | .kConnected, _ => .error (.assertion .connectorHandleWrite)

def handleError (s : ClientSession) : Except Fault ClientSession := do
  check (s.connector.state = .kConnecting) .connectorHandleError
  match s.connector.channel with
  | some c => .ok ((s.removeAndResetChannel c).retry c.fd)
  | none => .error .nullPointer

/-- `Channel::handleEvent`, for the connector's channel: it has a callback for errors and one for
writing. -/
def handleEvent (s : ClientSession) (revents : Mask) (err : ℤ) (isSelfConnect : Bool) :
    Except Fault ClientSession := do
  let handled ← if revents &&& EPOLLERR ≠ 0 then s.handleError else .ok s
  if revents &&& EPOLLOUT ≠ 0 then handled.handleWrite err isSelfConnect else .ok handled

/-- A connection closes, up to the connection callback. -/
def goesDown (s : ClientSession) (id : ℕ) : ClientSession :=
  { s with established := s.established.erase id, callback := some (.down id) }

/-- The client lets go of its connection, and has it destroyed. -/
def resetConnection (s : ClientSession) (id : ℕ) : ClientSession :=
  { s.queueInLoop (.connectDestroyed id) with client := { s.client with connection := none } }

def removeConnection (s : ClientSession) (id : ℕ) (a : Attempt) : Except Fault ClientSession := do
  check (s.client.connection = some id) .removeConnection
  if s.client.retry ∧ s.client.connect then (s.resetConnection id).restart a
  else .ok (s.resetConnection id)

/-- `TcpConnection::forceClose`, which does nothing to a connection that is closed. -/
def forceClose (s : ClientSession) (id : ℕ) : ClientSession :=
  if id ∈ s.established then s.queueInLoop (.forceClose id) else s

end ClientSession

/-- The calls of users. What `disconnect` does to the connection closes it, if at all, by an event
of its own. -/
inductive ClientCall
  | connect (a : Attempt)
  | disconnect
  | stop
  | enableRetry
  | forceClose (id : ℕ)
  deriving DecidableEq, Repr

inductive Step
  | call (c : ClientCall)
  | handleEvent (revents : Mask) (err : ℤ) (isSelfConnect : Bool)
  /-- `handleRead` takes the timers that have expired out of the set. -/
  | expires (batch : List ℕ)
  /-- The next of them is called. -/
  | fires (a : Attempt)
  /-- An event closes a connection. -/
  | closes (id : ℕ)
  /-- The connection callback returns; the attempt is that of a `restart`. -/
  | callbackReturns (a : Attempt)
  | dispatched
  | pending
  | poll
  deriving DecidableEq, Repr

namespace ClientSession

def call (s : ClientSession) : ClientCall → Except Fault ClientSession
  | .connect a => connectorStart { s with client := { s.client with connect := true } } a
  | .disconnect => .ok { s with client := { s.client with connect := false } }
  | .stop => .ok (connectorStop { s with client := { s.client with connect := false } })
  | .enableRetry => .ok { s with client := { s.client with retry := true } }
  | .forceClose id => .ok (s.forceClose id)

/-- The loop dispatches events, and is in none of the handlers. -/
def Dispatching (s : ClientSession) : Prop :=
  s.phase = .dispatch ∧ s.callback = none ∧ s.due = []

instance (s : ClientSession) : Decidable s.Dispatching := inferInstanceAs (Decidable (_ ∧ _))

/-- The poller has the channel of the connector. -/
def Registered (s : ClientSession) : Prop := ∃ c ∈ s.connector.channel, c.registered = true

instance (s : ClientSession) : Decidable s.Registered :=
  inferInstanceAs (Decidable (∃ c ∈ s.connector.channel, _))

/-- The functor at the head of the queue. -/
def runFunctor (s : ClientSession) : ClientFunctor → ClientSession
  | .resetChannel => s.resetChannel
  | .forceClose id => if id ∈ s.established then s.goesDown id else s
  | .connectDestroyed _ => s

end ClientSession

open ClientSession

def step (s : ClientSession) : Step → Except Fault ClientSession
  | .call c => s.call c
  | .handleEvent revents err isSelfConnect =>
    if s.Dispatching ∧ s.Registered then s.handleEvent revents err isSelfConnect
    else .error .impossible
  | .expires batch =>
    if s.Dispatching ∧ batch.Nodup ∧ batch ⊆ s.timers then
      .ok { s with timers := s.timers.diff batch, due := batch }
    else .error .impossible
  | .fires a =>
    match s.due with
    | _ :: due => startInLoop { s with due := due } a
    | [] => .error .impossible
  | .closes id =>
    if s.Dispatching ∧ id ∈ s.polled ∧ id ∈ s.established then .ok (s.goesDown id)
    else .error .impossible
  | .callbackReturns a =>
    match s.callback with
    | some (.up _) => .ok { s with callback := none }
    | some (.down id) => removeConnection { s with callback := none } id a
    | none => .error .impossible
  | .dispatched =>
    if s.Dispatching then .ok { s with phase := .functors s.pendingFunctors.length }
    else .error .impossible
  | .pending =>
    match s.phase, s.callback, s.pendingFunctors with
    | .functors (left + 1), none, f :: fs =>
      .ok (runFunctor { s with phase := .functors left, pendingFunctors := fs } f)
    | .functors (_ + 1), none, [] | .functors (_ + 1), some _, _ | .functors 0, _, _
    | .dispatch, _, _ => .error .impossible
  | .poll =>
    if s.phase = .functors 0 ∧ s.callback = none then
      .ok { s with phase := .dispatch, polled := s.established }
    else .error .impossible

end TcpClient

end Twnl
