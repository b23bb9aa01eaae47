import Twnl.Buffer.Spec
import Twnl.Machine.Run
import Twnl.Poller.Epoll

/-!
# A connection on its loop

A `Session` is one connection together with what it shares its loop with: the poller its channel is
registered in, and the functors queued for it. The log records what leaves the connection, the
calls of its callbacks and the system calls that change the socket.

## Callbacks

User code runs inside the callbacks. What it does there is a list of calls on the connection, and
comes with the rest of what the environment supplies to a dispatch (`Env`). No call made by a
user runs a callback before it returns: what would is queued.

## Other threads

Any thread may call a connection. From another than the loop's a call looks at `state_`, may set it,
and queues its functor; `state_` is read and written without a lock, so that these are three steps,
and the loop and other calls may come in between. `calls` are the calls that have looked at the
state, and `queueing` those that are about to queue.

## Dispatch

`handleEvent` runs up to four of the handlers in a row, and each of them looks at the state its
predecessor left. `pending` runs the functor at the head of the queue, so that a round of
`doPendingFunctors` is as many steps as there are functors in it. The wake-up that a queued functor
may need is left out: it decides when the functor runs and not what it does.
-/

namespace Twnl

/-- `TcpConnection::StateE`. -/
inductive StateE
  | kConnecting
  | kConnected
  | kDisconnected
  | kDisconnecting
  deriving DecidableEq, Repr

/-- A connection. Of the callbacks that may be left unset, whether they are set. -/
structure TcpConnection where
  state : StateE
  reading : Bool
  channel : Channel
  writeCompleteCallback : Bool
  highWaterMarkCallback : Bool
  highWaterMark : ℕ
  inputBuffer : Buffer
  outputBuffer : Buffer
  deriving DecidableEq, Repr

namespace TcpConnection

/-- The constructor, for a socket `fd` and a channel at the address `ptr`, and the setters of the
callbacks. With a high-water-mark callback comes its mark. -/
def new (ptr : ℕ) (fd : ℤ) (writeCompleteCallback : Bool) (highWaterMarkCallback : Option ℕ) :
    Except Fault TcpConnection := do
  let inputBuffer ← Buffer.new Buffer.kInitialSize
  let outputBuffer ← Buffer.new Buffer.kInitialSize
  .ok ⟨.kConnecting, true, Channel.new ptr fd, writeCompleteCallback,
    highWaterMarkCallback.isSome, highWaterMarkCallback.getD (64 * 1024 * 1024), inputBuffer,
    outputBuffer⟩

/-- What is queued in the loop. -/
inductive Functor
  | sendInLoop (data : List Byte)
  | shutdownInLoop
  | forceCloseInLoop
  | startReadInLoop
  | stopReadInLoop
  | writeCompleteCallback
  | highWaterMarkCallback (len : ℕ)
  deriving DecidableEq, Repr

/-- The state of a connection as a callback finds it: `state_`, the events of the channel, and
whether the kernel watches the descriptor. -/
structure Glance where
  state : StateE
  events : Mask
  watched : Bool
  deriving DecidableEq, Repr

/-- What leaves a connection. -/
inductive Effect
  /-- The kernel accepted these bytes. -/
  | accepted (bytes : List Byte)
  | shutdownWrite
  | connectionCallback (g : Glance)
  /-- The message callback is offered these bytes, and retrieves that many of them. -/
  | messageCallback (offered : List Byte) (retrieved : ℕ)
  | closeCallback (g : Glance)
  deriving DecidableEq, Repr

/-- The calls users make. A `send` on the loop thread may write at once, so it comes with the
kernel's answer. -/
inductive UserCall
  | send (data : List Byte) (answer : WriteResult)
  /-- `send(Buffer*)`. -/
  | sendBuffer (data : List Byte) (answer : WriteResult)
  | shutdown
  | forceClose
  | startRead
  | stopRead
  deriving DecidableEq, Repr

/-- A connection and its surroundings. -/
structure Session where
  conn : TcpConnection
  poller : EpollPoller
  pendingFunctors : List Functor
  log : List Effect
  /-- The calls of other threads that have looked at the state, and those that have set it. -/
  calls : List UserCall
  queueing : List UserCall

/-- A new connection next to a poller. -/
def Session.start (conn : TcpConnection) (poller : EpollPoller) : Session :=
  ⟨conn, poller, [], [], [], []⟩

/-- What the environment supplies to a dispatch: the answers of the kernel, the number of bytes the
message callback retrieves, and the calls made in the callbacks. -/
structure Env where
  reads : List ReadResult
  writes : ℕ → WriteResult
  consumed : ℕ
  onMessage : List UserCall
  onConnection : List UserCall
  /-- The calls made in `writeCompleteCallback_` and in `highWaterMarkCallback_`. -/
  onNotice : List UserCall

variable (k : Masks)

namespace Session

def setState (s : Session) (state : StateE) : Session := { s with conn := { s.conn with state } }

def withInput (s : Session) (b : Buffer) : Session :=
  { s with conn := { s.conn with inputBuffer := b } }

def withOutput (s : Session) (b : Buffer) : Session :=
  { s with conn := { s.conn with outputBuffer := b } }

def withReading (s : Session) (reading : Bool) : Session :=
  { s with conn := { s.conn with reading := reading } }

def withRevents (s : Session) (revents : Mask) : Session :=
  { s with conn := { s.conn with channel := { s.conn.channel with revents := revents } } }

/-- The kernel watches the descriptor. -/
def watched (s : Session) : Bool := (s.poller.interest s.conn.channel.fd).isSome

def glance (s : Session) : Glance := ⟨s.conn.state, s.conn.channel.events, s.watched⟩

def record (s : Session) (e : Effect) : Session := { s with log := s.log ++ [e] }

/-- `EventLoop::queueInLoop`. -/
def queueInLoop (s : Session) (f : Functor) : Session :=
  { s with pendingFunctors := s.pendingFunctors ++ [f] }

/-- One of the setters of the channel, with the update of the poller that follows it. -/
def channelCall (s : Session) (a : Channel.Call) : Except Fault Session := do
  let (poller, channel) ← EpollPoller.updateChannel k s.poller (s.conn.channel.call k a)
  .ok { s with poller := poller, conn := { s.conn with channel := channel } }

/-- `Channel::remove`. -/
def channelRemove (s : Session) : Except Fault Session := do
  check (s.conn.channel.isNoneEvent k) .channelRemove
  let (poller, channel) ← EpollPoller.removeChannel s.poller s.conn.channel
  .ok { s with poller := poller, conn := { s.conn with channel := channel } }

end Session

/-! ## The operations in the loop -/

def shutdownInLoop (s : Session) : Session :=
  if !s.conn.channel.isWriting k then s.record .shutdownWrite else s

def startReadInLoop (s : Session) : Except Fault Session :=
  if !s.conn.reading || !s.conn.channel.isReading k then do
    let enabled ← s.channelCall k .enableReading
    .ok (enabled.withReading true)
  else .ok s

def stopReadInLoop (s : Session) : Except Fault Session :=
  if s.conn.reading || s.conn.channel.isReading k then do
    let disabled ← s.channelCall k .disableReading
    .ok (disabled.withReading false)
  else .ok s

/-- Queues the high-water-mark callback if `len` bytes more reach the mark. -/
def noteHighWater (s : Session) (len : ℕ) : Session :=
  if s.conn.highWaterMark ≤ sizeAdd s.conn.outputBuffer.readableBytes len ∧
      s.conn.outputBuffer.readableBytes < s.conn.highWaterMark ∧ s.conn.highWaterMarkCallback
  then s.queueInLoop (.highWaterMarkCallback (sizeAdd s.conn.outputBuffer.readableBytes len))
  else s

/-- Queues the write-complete callback if it is set. -/
def noteWriteComplete (s : Session) : Session :=
  if s.conn.writeCompleteCallback then s.queueInLoop .writeCompleteCallback else s

/-- Makes sure that the channel waits for the socket to be writable. -/
def awaitWritable (s : Session) : Except Fault Session :=
  if !s.conn.channel.isWriting k then s.channelCall k .enableWriting else .ok s

/-- The part of `sendInLoop` that keeps what the kernel did not take, for `handleWrite`. -/
def bufferRemaining (s : Session) (remaining : List Byte) : Except Fault Session := do
  let outputBuffer ← s.conn.outputBuffer.append remaining
  awaitWritable k ((noteHighWater s remaining.length).withOutput outputBuffer)

/-- The errors after which `sendInLoop` does not buffer. It logs between the write and the tests of
`errno`, and the log statement is assumed to leave `errno` as it is. -/
def faultError (answer : WriteResult) : Bool :=
  answer == .fails .EPIPE || answer == .fails .ECONNRESET

/-- The direct write, which tells of its completion if it took everything. -/
def directWrite (s : Session) (data : List Byte) (answer : WriteResult) : Session :=
  let wrote := s.record (.accepted (answer.taken data))
  if 0 ≤ answer.ret data ∧ answer.remaining data = [] then noteWriteComplete wrote else wrote

/-- Writes directly when nothing waits to be written. The buffering of the rest stands inside that
case, as it does in the source. -/
def sendInLoop (s : Session) (data : List Byte) (answer : WriteResult) : Except Fault Session :=
  if s.conn.state = .kDisconnected then .ok s
  else if !s.conn.channel.isWriting k && s.conn.outputBuffer.readableBytes == 0 then do
    check ((answer.remaining data).length ≤ data.length) .sendInLoop
    if !faultError answer && answer.remaining data ≠ [] then
      bufferRemaining k (directWrite s data answer) (answer.remaining data)
    else .ok (directWrite s data answer)
  else .ok s

/-! ## The calls of users -/

/-- `EventLoop::runInLoop`, with nothing in between of what its caller did before. -/
def runInLoop (s : Session) (thread : Thread) (f : Functor)
    (now : Session → Except Fault Session) : Except Fault Session :=
  match thread with
  | .loop => now s
  | .other => .ok (s.queueInLoop f)

/-- `send(const void*, size_t)`. -/
def send (s : Session) (thread : Thread) (data : List Byte) (answer : WriteResult) :
    Except Fault Session :=
  if s.conn.state = .kConnected then
    runInLoop s thread (.sendInLoop data) fun s ↦ sendInLoop k s data answer
  else .ok s

/-- `send(Buffer*)`, which calls `sendInLoop` on the spot. -/
def sendBuffer (s : Session) (thread : Thread) (data : List Byte) (answer : WriteResult) :
    Except Fault Session :=
  match thread with
  | .loop => sendInLoop k s data answer
  | .other => .error .abort

/-- `shutdown` on the loop's own thread. -/
def shutdown (s : Session) : Session :=
  if s.conn.state = .kConnected then shutdownInLoop k (s.setState .kDisconnecting) else s

/-- `forceClose` on the loop's own thread, which queues its functor there as well. -/
def forceClose (s : Session) : Session :=
  if s.conn.state = .kConnected ∨ s.conn.state = .kDisconnecting then
    (s.setState .kDisconnecting).queueInLoop .forceCloseInLoop
  else s

/-- A call of a user on the loop's own thread. -/
def userCall (s : Session) : UserCall → Except Fault Session
  | .send data answer => send k s .loop data answer
  | .sendBuffer data answer => sendBuffer k s .loop data answer
  | .shutdown => .ok (shutdown k s)
  | .forceClose => .ok (forceClose s)
  | .startRead => startReadInLoop k s
  | .stopRead => stopReadInLoop k s

/-- The calls made in a callback, in order. -/
def inCallback (s : Session) (calls : List UserCall) : Except Fault Session :=
  Machine.run (userCall k) s calls

namespace UserCall

/-- A call that finds this state goes on. -/
def passes (state : StateE) : UserCall → Bool
  | send _ _ | shutdown => state == .kConnected
  | forceClose => state == .kConnected || state == .kDisconnecting
  | sendBuffer _ _ | startRead | stopRead => true

/-- The state that a call sets. -/
def stateAfter (state : StateE) : UserCall → StateE
  | shutdown | forceClose => .kDisconnecting
  | send _ _ | sendBuffer _ _ | startRead | stopRead => state

/-- The functor that a call queues. -/
def functor : UserCall → Functor
  | send data _ | sendBuffer data _ => .sendInLoop data
  | shutdown => .shutdownInLoop
  | forceClose => .forceCloseInLoop
  | startRead => .startReadInLoop
  | stopRead => .stopReadInLoop

end UserCall

/-- A call from another thread looks at the state. One of `send(Buffer*)` goes to `sendInLoop`, which
aborts. -/
def callBegins (s : Session) (call : UserCall) : Except Fault Session :=
  match call with
  | .sendBuffer _ _ => .error .abort
  | call =>
    .ok (if call.passes s.conn.state then { s with calls := call :: s.calls } else s)

/-- One that has looked at the state sets it, if it is one that does, and goes on to queue. -/
def callSets (s : Session) (call : UserCall) : Session :=
  if call ∈ s.calls then
    { s.setState (call.stateAfter s.conn.state) with
      calls := s.calls.erase call, queueing := call :: s.queueing }
  else s

/-- One that is about to queue its functor queues it. -/
def callEnds (s : Session) (call : UserCall) : Session :=
  if call ∈ s.queueing then
    { s.queueInLoop call.functor with queueing := s.queueing.erase call }
  else s

/-! ## The handlers -/

def connectionCallback (s : Session) (calls : List UserCall) : Except Fault Session :=
  inCallback k (s.record (.connectionCallback s.glance)) calls

def handleClose (s : Session) (env : Env) : Except Fault Session := do
  check (s.conn.state = .kConnected ∨ s.conn.state = .kDisconnecting) .handleClose
  let disabled ← (s.setState .kDisconnected).channelCall k .disableAll
  let down ← connectionCallback k disabled env.onConnection
  .ok (down.record (.closeCallback down.glance))

/-- Asks for `SO_ERROR` and logs it. -/
def handleError (s : Session) : Session := s

/-- The message callback is offered the input buffer and retrieves from its front. -/
def messageCallback (s : Session) (env : Env) : Except Fault Session := do
  let inputBuffer ← s.conn.inputBuffer.retrieve env.consumed
  inCallback k ((s.record (.messageCallback s.conn.inputBuffer.readable env.consumed)).withInput
    inputBuffer) env.onMessage

/-- Reads once, or until there is nothing to read. A descriptor without an answer is one that has
nothing to read. -/
def readInput (b : Buffer) (reads : List ReadResult) : Except Fault (ℤ × Option Errno × Buffer) :=
  if k.isET then b.readFdET 0 none reads else b.readFd (reads.headD (.fails .EAGAIN)) none

def handleRead (s : Session) (env : Env) : Except Fault Session := do
  let (n, _, inputBuffer) ← readInput k s.conn.inputBuffer env.reads
  if 0 < n then messageCallback k (s.withInput inputBuffer) env
  else if n = 0 then handleClose k (s.withInput inputBuffer) env
  else .ok (handleError (s.withInput inputBuffer))

/-- Writes once, or until the kernel takes no more. -/
def writeOutput (b : Buffer) (writes : ℕ → WriteResult) : Option Buffer.Written :=
  if k.isET then b.writeFdET writes none else some (b.writeFd (writes 0) none)

/-- What follows when the last byte of the output buffer is written. -/
def writeComplete (s : Session) : Except Fault Session := do
  let disabled ← s.channelCall k .disableWriting
  if disabled.conn.state = .kDisconnecting then
    .ok (shutdownInLoop k (noteWriteComplete disabled))
  else .ok (noteWriteComplete disabled)

/-- The connection after its write helper. -/
def wrote (s : Session) (w : Buffer.Written) : Session :=
  (s.withOutput w.buffer).record (.accepted w.taken)

def handleWrite (s : Session) (writes : ℕ → WriteResult) : Except Fault Session :=
  if s.conn.channel.isWriting k then
    match writeOutput k s.conn.outputBuffer writes with
    | none => .error .divergence
    | some w =>
      if 0 < w.ret ∧ w.buffer.readableBytes = 0 then writeComplete k (wrote s w)
      else .ok (wrote s w)
  else .ok s

def forceCloseInLoop (s : Session) (env : Env) : Except Fault Session :=
  if s.conn.state = .kDisconnecting ∨ s.conn.state = .kConnected then handleClose k s env
  else .ok s

/-- Runs a functor of the queue. -/
def runFunctor (s : Session) (env : Env) : Functor → Except Fault Session
  | .sendInLoop data => sendInLoop k s data (env.writes 0)
  | .shutdownInLoop => .ok (shutdownInLoop k s)
  | .forceCloseInLoop => forceCloseInLoop k s env
  | .startReadInLoop => startReadInLoop k s
  | .stopReadInLoop => stopReadInLoop k s
  | .writeCompleteCallback => inCallback k s env.onNotice
  | .highWaterMarkCallback _ => inCallback k s env.onNotice

/-! ## Dispatch -/

/-- A test of `handleEvent`. -/
def has (revents bits : Mask) : Bool := revents &&& bits != 0

/-- Runs a handler if the test for it succeeds. -/
def handleIf (p : Bool) (handler : Session → Except Fault Session) (s : Session) :
    Except Fault Session := if p then handler s else .ok s

/-- The mask says that the peer is gone and nothing is left to read. -/
def hangsUp (revents : Mask) : Bool := has revents EPOLLHUP && !has revents EPOLLIN

/-- The mask says that there is something to read. -/
def readsInput (revents : Mask) : Bool := has revents (EPOLLIN ||| EPOLLPRI ||| EPOLLRDHUP)

/-- `Channel::handleEvent`, after `set_revents`. -/
def handleEvent (s : Session) (revents : Mask) (env : Env) : Except Fault Session := do
  let closed ← handleIf (hangsUp revents) (handleClose k · env) (s.withRevents revents)
  let errored ← handleIf (has revents EPOLLERR) (fun s ↦ .ok (handleError s)) closed
  let read ← handleIf (readsInput revents) (handleRead k · env) errored
  handleIf (has revents EPOLLOUT) (handleWrite k · env.writes) read

/-! ## The ends of a connection's life -/

def connectEstablished (s : Session) (onConnection : List UserCall) : Except Fault Session := do
  check (s.conn.state = .kConnecting) .connectEstablished
  let enabled ← (s.setState .kConnected).channelCall k .enableReading
  connectionCallback k enabled onConnection

/-- The part of `connectDestroyed` for a connection whose state is `kConnected`. -/
def destroyConnected (s : Session) (env : Env) : Except Fault Session := do
  let disabled ← (s.setState .kDisconnected).channelCall k .disableAll
  connectionCallback k disabled env.onConnection

def connectDestroyed (s : Session) (env : Env) : Except Fault Session := do
  let down ← handleIf (s.conn.state = .kConnected) (destroyConnected k · env) s
  down.channelRemove k

/-! ## Runs -/

/-- What happens to an established connection. -/
inductive Step
  | handleEvent (revents : Mask) (env : Env)
  /-- A call on the loop's own thread. -/
  | user (call : UserCall)
  /-- A call from another thread. -/
  | callBegins (call : UserCall)
  | callSets (call : UserCall)
  | callEnds (call : UserCall)
  /-- The functor at the head of the queue runs. -/
  | pending (env : Env)

/-- One step. -/
def step (s : Session) : Step → Except Fault Session
  | .handleEvent revents env => handleEvent k s revents env
  | .user call => userCall k s call
  | .callBegins call => callBegins s call
  | .callSets call => .ok (callSets s call)
  | .callEnds call => .ok (callEnds s call)
  | .pending env =>
    match s.pendingFunctors with
    | [] => .ok s
    | f :: fs => runFunctor k { s with pendingFunctors := fs } env f

end TcpConnection

end Twnl
