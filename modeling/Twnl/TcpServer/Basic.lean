import Mathlib.Logic.Function.Basic
import Twnl.Printf
import Twnl.TcpConnection.Basic

/-!
# A server and its loops

A `ServerSession` is a server with the loops its connections live on. Loop 0 is the base loop, on
which connections are accepted and removed; the others are those of the pool. Every loop runs the
functors that are queued in it one by one, in their order, and the loops go on independently.

Connections are numbered as they are accepted. Of a connection there is its name, its loop and its
state; what it reads and writes is left out. `handleClose` is two steps, since user code runs in
between. The calls of `shutdown` and `forceClose`, which any thread may make, are three: they look
at the state, set it, and queue their functor.

Beside the data of the server there is a record of the run: which names were overwritten in the map,
which close callbacks fired, what was erased, and where connections were established and destroyed.
-/

namespace Twnl

/-! ## The data -/

/-- A server. The map of its connections has their names for keys. -/
structure TcpServer where
  ipPort : List Char
  name : List Char
  /-- The pool: how many loops it has, and which of them is next. -/
  numThreads : ℕ
  next : ℕ
  nextConnId : ℤ
  connections : List (List Char × ℕ)
  deriving DecidableEq, Repr

namespace TcpServer

/-- A connection of the server. -/
structure ServerConn where
  loop : ℕ
  name : List Char
  state : StateE
  deriving DecidableEq, Repr

/-- The functors of the server and its connections. -/
inductive ServerFunctor
  | connectEstablished (id : ℕ)
  | removeConnectionInLoop (id : ℕ)
  | connectDestroyed (id : ℕ)
  | shutdownInLoop (id : ℕ)
  | forceCloseInLoop (id : ℕ)
  deriving DecidableEq, Repr

/-- The calls that change the state of a connection. -/
inductive StateCall
  | shutdown
  | forceClose
  deriving DecidableEq, Repr

structure ServerSession where
  server : TcpServer
  /-- The connections are those below it. -/
  accepted : ℕ
  conn : ℕ → ServerConn
  queues : ℕ → List ServerFunctor
  /-- The connections whose `handleClose` is in its connection callback. -/
  closing : List ℕ
  /-- The calls that have looked at the state, and those that have set it. -/
  calls : List (StateCall × ℕ)
  queueing : List (StateCall × ℕ)
  /-- The names whose entries were overwritten, and the connections whose close callback fired. -/
  overwritten : List (List Char)
  fired : List ℕ
  /-- The removals, with the number of entries that each erased. -/
  erased : List (ℕ × ℕ)
  /-- The connections that were established and destroyed, with the loop that did. -/
  established : List (ℕ × ℕ)
  destroyed : List (ℕ × ℕ)

namespace ServerSession

/-- A server that was started with that many loops in its pool. -/
def start (name : List Char) (numThreads : ℕ) : ServerSession where
  server := ⟨[], name, numThreads, 0, 1, []⟩
  accepted := 0
  conn := fun _ ↦ ⟨0, [], .kConnecting⟩
  queues := fun _ ↦ []
  closing := []
  calls := []
  queueing := []
  overwritten := []
  fired := []
  erased := []
  established := []
  destroyed := []

def queueInLoop (s : ServerSession) (loop : ℕ) (f : ServerFunctor) : ServerSession :=
  { s with queues := Function.update s.queues loop (s.queues loop ++ [f]) }

def setState (s : ServerSession) (id : ℕ) (state : StateE) : ServerSession :=
  { s with conn := Function.update s.conn id { s.conn id with state := state } }

/-! ## Connections -/

/-- `TcpConnection::connectEstablished`, on a loop. -/
def connectEstablished (s : ServerSession) (loop id : ℕ) : Except Fault ServerSession := do
  check ((s.conn id).state = .kConnecting) .connectEstablished
  .ok { s.setState id .kConnected with established := s.established ++ [(id, loop)] }

/-- `TcpConnection::connectDestroyed`, on a loop. -/
def connectDestroyed (s : ServerSession) (loop id : ℕ) : ServerSession :=
  let left := if (s.conn id).state = .kConnected then s.setState id .kDisconnected else s
  { left with destroyed := s.destroyed ++ [(id, loop)] }

/-- `TcpConnection::handleClose`, up to the connection callback. -/
def handleClose (s : ServerSession) (id : ℕ) : Except Fault ServerSession := do
  check ((s.conn id).state = .kConnected ∨ (s.conn id).state = .kDisconnecting) .handleClose
  .ok { s.setState id .kDisconnected with closing := s.closing ++ [id] }

def forceCloseInLoop (s : ServerSession) (id : ℕ) : Except Fault ServerSession :=
  if (s.conn id).state = .kDisconnecting ∨ (s.conn id).state = .kConnected then s.handleClose id
  else .ok s

/-! ## The server -/

/-- `EventLoopThreadPool::getNextLoop`. -/
def getNextLoop (server : TcpServer) : ℕ :=
  if server.numThreads = 0 then 0 else server.next + 1

/-- The loop after it. -/
def advance (server : TcpServer) : TcpServer :=
  if server.numThreads = 0 then server
  else { server with next := if server.numThreads ≤ server.next + 1 then 0 else server.next + 1 }

def connName (server : TcpServer) : List Char :=
  -- `ipPort_` is never given a value
  server.name ++ snprintf 64 ('-' :: server.ipPort ++ '#' :: decimal server.nextConnId)

/-- `connections_[connName] = conn`. -/
def setConnection (s : ServerSession) (name : List Char) (id : ℕ) : ServerSession :=
  { s with
    server := { s.server with
      connections := s.server.connections.filter (·.1 ≠ name) ++ [(name, id)] }
    overwritten := s.overwritten ++ (s.server.connections.filter (·.1 = name)).map Prod.fst }

/-- `TcpServer::newConnection`. -/
def newConnection (s : ServerSession) : Except Fault ServerSession :=
  let id := s.accepted
  let loop := getNextLoop s.server
  let name := connName s.server
  let made := { s with
    server := { advance s.server with nextConnId := increment s.server.nextConnId }
    accepted := id + 1
    conn := Function.update s.conn id ⟨loop, name, .kConnecting⟩ }
  let listed := made.setConnection name id
  -- in the loop's own thread `runInLoop` calls it here and now
  if loop = 0 then listed.connectEstablished 0 id
  else .ok (listed.queueInLoop loop (.connectEstablished id))

/-- `TcpServer::removeConnectionInLoop`. The assert assigns to what it should compare. -/
def removeConnectionInLoop (s : ServerSession) (id : ℕ) : ServerSession :=
  let name := (s.conn id).name
  let n := s.server.connections.countP (·.1 = name)
  let removed := { s with
    server := { s.server with connections := s.server.connections.filter (·.1 ≠ name) }
    erased := s.erased ++ [(id, n)] }
  removed.queueInLoop (s.conn id).loop (.connectDestroyed id)

/-- `TcpServer::removeConnection`, which is the close callback. -/
def removeConnection (s : ServerSession) (id : ℕ) : ServerSession :=
  let called := { s with fired := s.fired ++ [id] }
  -- `runInLoop` of the base loop
  if (s.conn id).loop = 0 then called.removeConnectionInLoop id
  else called.queueInLoop 0 (.removeConnectionInLoop id)

def runFunctor (s : ServerSession) (loop : ℕ) : ServerFunctor → Except Fault ServerSession
  | .connectEstablished id => s.connectEstablished loop id
  | .removeConnectionInLoop id => .ok (s.removeConnectionInLoop id)
  | .connectDestroyed id => .ok (s.connectDestroyed loop id)
  | .shutdownInLoop _ => .ok s
  | .forceCloseInLoop id => s.forceCloseInLoop id

/-! ## Calls -/

/-- The states in which a call goes on. -/
def Passes (c : StateCall) (state : StateE) : Prop :=
  match c with
  | .shutdown => state = .kConnected
  | .forceClose => state = .kConnected ∨ state = .kDisconnecting

instance (c : StateCall) (state : StateE) : Decidable (Passes c state) :=
  match c with
  | .shutdown => inferInstanceAs (Decidable (_ = _))
  | .forceClose => inferInstanceAs (Decidable (_ ∨ _))

def callFunctor (c : StateCall) (id : ℕ) : ServerFunctor :=
  match c with
  | .shutdown => .shutdownInLoop id
  | .forceClose => .forceCloseInLoop id

/-- A call sets the state. -/
def setCall (s : ServerSession) (c : StateCall) (id : ℕ) : ServerSession :=
  { s.setState id .kDisconnecting with
    calls := s.calls.erase (c, id), queueing := s.queueing ++ [(c, id)] }

/-- The rest of a call. -/
def finishCall (s : ServerSession) (c : StateCall) (id : ℕ) : ServerSession :=
  { s with queueing := s.queueing.erase (c, id) }.queueInLoop (s.conn id).loop (callFunctor c id)

end ServerSession

/-! ## Steps -/

open ServerSession

inductive Step
  | accept
  /-- An event closes a connection whose channel is in the poller. -/
  | closes (id : ℕ)
  /-- The connection callback of `handleClose` returns. -/
  | closeCallback (id : ℕ)
  | callBegins (c : StateCall) (id : ℕ)
  | callSets (c : StateCall) (id : ℕ)
  | callEnds (c : StateCall) (id : ℕ)
  /-- A loop runs the functor at the head of its queue. -/
  | pending (loop : ℕ)
  deriving DecidableEq, Repr

/-- The connection was established and not destroyed. -/
def Watched (s : ServerSession) (id : ℕ) : Prop :=
  (id, (s.conn id).loop) ∈ s.established ∧ (id, (s.conn id).loop) ∉ s.destroyed

instance (s : ServerSession) (id : ℕ) : Decidable (Watched s id) :=
  inferInstanceAs (Decidable (_ ∧ _))

def step (s : ServerSession) : Step → Except Fault ServerSession
  | .accept => s.newConnection
  | .closes id => if Watched s id then s.handleClose id else .error .impossible
  | .closeCallback id =>
    if id ∈ s.closing then .ok (removeConnection { s with closing := s.closing.erase id } id)
    else .error .impossible
  | .callBegins c id =>
    if id < s.accepted then
      if Passes c (s.conn id).state then .ok { s with calls := s.calls ++ [(c, id)] } else .ok s
    else .error .impossible
  | .callSets c id => if (c, id) ∈ s.calls then .ok (s.setCall c id) else .error .impossible
  | .callEnds c id => if (c, id) ∈ s.queueing then .ok (s.finishCall c id) else .error .impossible
  | .pending loop =>
    match s.queues loop with
    | f :: fs => runFunctor { s with queues := Function.update s.queues loop fs } loop f
    | [] => .error .impossible

end TcpServer

end Twnl
