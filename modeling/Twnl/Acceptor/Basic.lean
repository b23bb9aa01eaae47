import Mathlib.Data.List.Range
import Twnl.Channel.Basic
import Twnl.Fault
import Twnl.Machine.Run

/-!
# Accepting connections

A listening socket has a queue, in the kernel, of the connections that have been made and not
accepted, and a channel in its loop's poller, which is one that uses epoll. When the poller reports
the channel, `handleRead` accepts one connection.

Whether the socket is reported depends on the trigger: level-triggered it is as long as the queue is
not empty, edge-triggered once for whatever has come since it was last reported. A connection may
come at any time after the socket has begun to listen, even before its channel is in the poller, and
a return of the poller may leave the socket out although it is ready.
-/

namespace Twnl

/-- The `errno` values after which the acceptor goes on; any other aborts. -/
inductive AcceptErrno
  | EAGAIN
  | ECONNABORTED
  | EINTR
  | EPROTO
  | EPERM
  | EMFILE
  | other (code : ℕ)
  deriving DecidableEq, Repr

/-- The answer to an `accept`, and the answer to the second that is made when there are no more
descriptors. -/
inductive AcceptResult
  | accepts
  | fails (e : AcceptErrno) (again : Bool)
  deriving DecidableEq, Repr

/-- An acceptor. Of its callback there is whether it was set. -/
structure Acceptor where
  acceptChannel : Channel
  newConnectionCallback : Bool
  listenning : Bool
  deriving DecidableEq, Repr

namespace Acceptor

/-- The loop is in `poll`, or it is not, and the channel may be among the active ones. -/
inductive Phase
  | blocked
  | running (active : Bool)
  deriving DecidableEq, Repr

/-- An acceptor in its loop. The connections are numbered as they come. -/
structure Session where
  acceptor : Acceptor
  /-- `Channel::mode`, which the constructor of the loop has set. -/
  mode : Mode
  phase : Phase
  arrived : ℕ
  /-- The queue of the kernel. -/
  backlog : List ℕ
  /-- Something has come since the socket was last reported. -/
  notified : Bool
  /-- What was taken from the queue, and whether the callback got it or it was closed. -/
  taken : List (ℕ × Bool)
  deriving DecidableEq, Repr

namespace Session

/-- An acceptor that does not listen yet. -/
def start (mode : Mode) (callback : Bool) : Session :=
  ⟨⟨.new 0 0, callback, false⟩, mode, .running false, 0, [], false, []⟩

variable (s : Session)

def masks : Masks := Masks.initDefaultEvent s.mode

/-! ## The kernel -/

/-- The poller asks for connections. -/
def Watched : Prop := s.acceptor.acceptChannel.events &&& EPOLLIN ≠ 0

instance : Decidable s.Watched := inferInstanceAs (Decidable (_ ≠ _))

/-- The next `epoll_wait` may report the socket. -/
def Notified : Prop :=
  s.Watched ∧
    if s.acceptor.acceptChannel.events &&& EPOLLET ≠ 0 then s.notified = true else s.backlog ≠ []

instance : Decidable s.Notified := inferInstanceAs (Decidable (_ ∧ _))

def arrive : Session :=
  { s with
    arrived := s.arrived + 1
    backlog := s.backlog ++ [s.arrived]
    notified := s.notified || decide s.Watched }

/-- The connection at the head of the queue is accepted. -/
def take (handed : Bool) : Except Fault Session :=
  match s.backlog with
  | conn :: backlog => .ok { s with backlog := backlog, taken := s.taken ++ [(conn, handed)] }
  | [] => .error .impossible

/-! ## The acceptor -/

/-- `Acceptor::listen`. Connections may come as soon as the socket listens, and if any have when the
channel is added to the poller it is ready. -/
def listen (arriving : ℕ) : Session :=
  let queued := arrive^[arriving] { s with acceptor := { s.acceptor with listenning := true } }
  { queued with
    acceptor := { queued.acceptor with
      acceptChannel := queued.acceptor.acceptChannel.enableReading queued.masks }
    notified := queued.backlog ≠ [] }

/-- `Acceptor::handleRead`. -/
def handleRead : AcceptResult → Except Fault Session
  -- without a callback the connection is closed
  | .accepts => s.take s.acceptor.newConnectionCallback
  -- the idle descriptor is given up so that the connection can be accepted, and closed
  | .fails .EMFILE true => s.take false
  | .fails .EMFILE false => .ok s
  | .fails .EAGAIN _ | .fails .ECONNABORTED _ | .fails .EINTR _ | .fails .EPROTO _
  | .fails .EPERM _ => .ok s
  -- `sockets::accept`
  | .fails (.other _) _ => .error .abort

end Session

/-! ## Steps -/

open Session

inductive Step
  /-- `TcpServer::start`, with the connections that come before the channel is in the poller. -/
  | listen (arriving : ℕ)
  | arrives
  /-- The loop enters `epoll_wait`, and comes back from it. -/
  | poll
  | returns (reported : Bool)
  | handleRead (r : AcceptResult)
  deriving DecidableEq, Repr

def step (s : Session) : Step → Except Fault Session
  | .listen arriving =>
    if s.phase ≠ .blocked ∧ s.acceptor.listenning = false then .ok (s.listen arriving)
    else .error .impossible
  | .arrives => if s.acceptor.listenning = true then .ok s.arrive else .error .impossible
  | .poll =>
    -- every active channel is handled before the loop polls again
    if s.phase = .running false then .ok { s with phase := .blocked } else .error .impossible
  | .returns reported =>
    if s.phase = .blocked ∧ (reported = true → s.Notified) then
      .ok { s with phase := .running reported, notified := s.notified && !reported }
    else .error .impossible
  | .handleRead r =>
    if s.phase = .running true then handleRead { s with phase := .running false } r
    else .error .impossible

end Acceptor

end Twnl
