import Twnl.Machine.Run
import Twnl.Poller.Epoll
import Twnl.TcpConnection.Basic

/-!
# What refers to a connection

A `Lifespan` is one connection of a server that lives, with all that has to do with how long the
connection lives: who holds a strong reference to it, and what is still to be run for it. The strong
references are the entry in the map of the server, those of user threads, those bound in functors,
and the guard of `handleClose`; a shared pointer that is a temporary of some call is not counted.
Four of the functors, and the callbacks of the channel, have the bare `this` in them.

## Batches

A loop takes all that is queued in it, runs it functor by functor, and destroys the functors when
the last of them has returned: until then a functor that has run holds its reference. A functor that
runs is at the head of what is left of its batch.

## Interleaving

The base loop, the loop of the connection and the user threads take their steps in any order. What
a loop executes is two steps. A call of a user is three: it looks at the state, sets it, and queues
its functor, or runs it if the thread is the loop's. With a pool that is empty the two loops are
one; then nothing is ever queued in the other.

Of the connection there is its state, `reading_`, and how its channel stands with the poller. Of its
buffers there is what a write makes of them.

## The end of the connection

With the last reference goes the connection: its channel first, then its socket, and with the socket
what the kernel watches. On the thread of the loop nothing comes between the two; where another
thread drops the reference, `poll` may.

## Builds

A build without the asserts goes on where one would have failed. There a second close is a close
like the first, and a channel that was removed is added again when its interest is set, although the
poller has forgotten it.
-/

namespace Twnl

namespace TcpServer

/-- The functors that name a connection. -/
inductive Naming
  | connectEstablished
  | connectDestroyed
  | removeConnectionInLoop
  | forceCloseInLoop
  | writeCompleteCallback
  | highWaterMarkCallback
  | sendInLoop
  | shutdownInLoop
  | startReadInLoop
  | stopReadInLoop
  deriving DecidableEq, Repr

/-- A shared pointer is bound in the functor. -/
def Naming.Strong : Naming → Prop
  | .connectEstablished | .connectDestroyed | .removeConnectionInLoop | .forceCloseInLoop
  | .writeCompleteCallback | .highWaterMarkCallback => True
  | .sendInLoop | .shutdownInLoop | .startReadInLoop | .stopReadInLoop => False

instance : DecidablePred Naming.Strong
  | .connectEstablished | .connectDestroyed | .removeConnectionInLoop | .forceCloseInLoop
  | .writeCompleteCallback | .highWaterMarkCallback => inferInstanceAs (Decidable True)
  | .sendInLoop | .shutdownInLoop | .startReadInLoop | .stopReadInLoop =>
    inferInstanceAs (Decidable False)

/-- The base loop, and the loop of the connection. -/
inductive LoopRole
  | base
  | io
  deriving DecidableEq, Repr

/-- What a loop has of the connection. -/
structure Round where
  pendingFunctors : List Naming
  /-- The batch, until it is destroyed. -/
  functors : List Naming
  /-- What of the batch has not returned. -/
  left : List Naming
  /-- The first of it runs. -/
  calling : Bool
  deriving DecidableEq, Repr

/-- A batch that is to be run. -/
def Round.taken (functors : List Naming) : Round := ⟨[], functors, functors, false⟩

/-- The calls of users. -/
inductive ConnCall
  | send
  | shutdown
  | forceClose
  | startRead
  | stopRead
  deriving DecidableEq, Repr

/-- What becomes of the bytes of a write: they wait in the buffer or are lost, all of them are
written, or some of them. With it, whether that queues a callback. -/
inductive Sent
  | waits
  | all (writeComplete : Bool)
  | some (highWaterMark : Bool)
  deriving DecidableEq, Repr

/-- The callbacks of the channel, with what the read of `handleRead` returns. -/
inductive ChannelCallback
  | close
  | error
  | readMessage
  | readEnd
  | readError
  | write (sent : Sent)
  deriving DecidableEq, Repr

structure Lifespan where
  /-- The loop of the connection is the base loop. -/
  shared : Bool
  state : StateE
  reading : Bool
  /-- The interest of the channel, and how it stands with the poller. -/
  isReading : Bool
  isWriting : Bool
  standing : EpollPoller.Standing
  /-- `connectDestroyed` has removed the channel. -/
  destroyed : Bool
  /-- The entry in `connections_`. -/
  mapped : Bool
  rounds : LoopRole → Round
  /-- The channel is in `activeChannels_`. -/
  active : Bool
  /-- Its `handleEvent` runs, and in it a callback. -/
  handling : Bool
  inCallback : Bool
  /-- `handleClose` is in the connection callback, and `guardThis` holds a reference. -/
  closing : Bool
  /-- The user threads that hold a reference. -/
  holders : List ℕ
  /-- The calls that have looked at the state, and those that have set it. -/
  calls : List (ℕ × ConnCall)
  queueing : List (ℕ × ConnCall)

namespace Lifespan

/-- A connection that was accepted. Where the base loop is its loop, `runInLoop` runs
`connectEstablished` on the spot, which is a batch of its own. -/
def start (shared : Bool) : Lifespan where
  shared := shared
  state := .kConnecting
  reading := true
  isReading := false
  isWriting := false
  standing := .fresh
  destroyed := false
  mapped := true
  rounds
    | .base => .taken []
    -- on the base loop it is `newConnection` that is running
    | .io => if shared then .taken [.connectEstablished] else ⟨[.connectEstablished], [], [], false⟩
  active := false
  handling := false
  inCallback := false
  closing := false
  holders := []
  calls := []
  queueing := []

/-! ## References -/

/-- A functor that is queued in the loop, or in its batch, holds a reference. -/
def BoundIn (s : Lifespan) (loop : LoopRole) : Prop :=
  ∃ f ∈ (s.rounds loop).pendingFunctors ++ (s.rounds loop).functors, f.Strong

instance (s : Lifespan) : DecidablePred s.BoundIn := fun _ ↦
  inferInstanceAs (Decidable (∃ f ∈ _, _))

/-- There is a strong reference. -/
def Held (s : Lifespan) : Prop :=
  s.mapped = true ∨ s.closing = true ∨ s.holders ≠ [] ∨ s.BoundIn .base ∨ s.BoundIn .io

instance : DecidablePred Held := fun _ ↦ inferInstanceAs (Decidable (_ ∨ _))

/-! ## The connection -/

def setState (s : Lifespan) (state : StateE) : Lifespan := { s with state := state }

def queueInLoop (s : Lifespan) (loop : LoopRole) (f : Naming) : Lifespan :=
  { s with
    rounds := Function.update s.rounds loop
      { s.rounds loop with pendingFunctors := (s.rounds loop).pendingFunctors ++ [f] } }

/-- A setter of the channel, and the update of the poller. A channel that was removed has the index
`kDeleted`, and past the assert that is all the poller looks at. -/
def setInterest (s : Lifespan) (build : Build) (isReading isWriting : Bool) :
    Except Fault Lifespan := do
  build.check (s.standing ≠ .removed) .epollUpdateChannel
  .ok { s with
    isReading := isReading
    isWriting := isWriting
    standing :=
      if s.standing = .removed then .added else s.standing.update (!isReading && !isWriting) }

/-- `Channel::remove`. -/
def channelRemove (s : Lifespan) (build : Build) : Except Fault Lifespan := do
  build.check (s.isReading = false ∧ s.isWriting = false) .channelRemove
  .ok { s with standing := .removed, destroyed := true }

/-- `TcpServer::removeConnectionInLoop`. -/
def removeConnectionInLoop (s : Lifespan) : Lifespan :=
  { s with mapped := false }.queueInLoop .io .connectDestroyed

/-- `TcpServer::removeConnection`. -/
def removeConnection (s : Lifespan) : Lifespan :=
  if s.shared then s.removeConnectionInLoop else s.queueInLoop .base .removeConnectionInLoop

/-- `TcpConnection::handleClose`, up to the connection callback. -/
def handleClose (s : Lifespan) (build : Build) : Except Fault Lifespan := do
  build.check (s.state = .kConnected ∨ s.state = .kDisconnecting) .handleClose
  let disabled ← (s.setState .kDisconnected).setInterest build false false
  .ok { disabled with closing := true }

/-- What follows if it is `handleClose` that the connection callback returns to. -/
def closeCallback (s : Lifespan) : Lifespan :=
  if s.closing then { s.removeConnection with closing := false } else s

def connectEstablished (s : Lifespan) (build : Build) : Except Fault Lifespan := do
  build.check (s.state = .kConnecting) .connectEstablished
  (s.setState .kConnected).setInterest build true s.isWriting

/-- `TcpConnection::connectDestroyed`, up to the connection callback. -/
def connectDestroyed (s : Lifespan) (build : Build) : Except Fault Lifespan :=
  if s.state = .kConnected then (s.setState .kDisconnected).setInterest build false false
  else .ok s

def forceCloseInLoop (s : Lifespan) (build : Build) : Except Fault Lifespan :=
  if s.state = .kDisconnecting ∨ s.state = .kConnected then s.handleClose build else .ok s

def startReadInLoop (s : Lifespan) (build : Build) : Except Fault Lifespan :=
  if s.reading = false ∨ s.isReading = false then do
    let enabled ← s.setInterest build true s.isWriting
    .ok { enabled with reading := true }
  else .ok s

def stopReadInLoop (s : Lifespan) (build : Build) : Except Fault Lifespan :=
  if s.reading = true ∨ s.isReading = true then do
    let disabled ← s.setInterest build false s.isWriting
    .ok { disabled with reading := false }
  else .ok s

/-- Queues a callback if there is one to be called. -/
def notice (s : Lifespan) (p : Bool) (f : Naming) : Lifespan :=
  if p then s.queueInLoop .io f else s

def sendInLoop (s : Lifespan) (build : Build) (sent : Sent) : Except Fault Lifespan :=
  if s.state = .kDisconnected ∨ s.isWriting = true then .ok s
  else
    match sent with
    -- the buffer is not empty, or the peer is gone
    | .waits => .ok s
    | .all writeComplete => .ok (s.notice writeComplete .writeCompleteCallback)
    | .some highWaterMark =>
      (s.notice highWaterMark .highWaterMarkCallback).setInterest build s.isReading true

def handleWrite (s : Lifespan) (build : Build) (sent : Sent) : Except Fault Lifespan :=
  match s.isWriting, sent with
  | true, .all writeComplete => do
    let disabled ← s.setInterest build s.isReading false
    .ok (disabled.notice writeComplete .writeCompleteCallback)
  | true, .waits | true, .some _ | false, _ => .ok s

/-! ## Execution -/

/-- The code follows the pointer to the connection. -/
def follow (s : Lifespan) : Except Fault Unit :=
  if s.Held then .ok () else .error .useAfterFree

/-- A functor is called. The callbacks of users are what there is between the call and the
return. -/
def callFunctor (s : Lifespan) (build : Build) (sent : Sent) : Naming → Except Fault Lifespan
  | .connectEstablished => s.connectEstablished build
  | .connectDestroyed => s.connectDestroyed build
  | .removeConnectionInLoop => .ok s.removeConnectionInLoop
  | .forceCloseInLoop => s.forceCloseInLoop build
  | .sendInLoop => s.sendInLoop build sent
  | .startReadInLoop => s.startReadInLoop build
  | .stopReadInLoop => s.stopReadInLoop build
  | .writeCompleteCallback | .highWaterMarkCallback | .shutdownInLoop => .ok s

/-- What a functor has to do after the callbacks of users. -/
def finishFunctor (s : Lifespan) (build : Build) : Naming → Except Fault Lifespan
  | .connectDestroyed => s.channelRemove build
  | .forceCloseInLoop => .ok s.closeCallback
  | .connectEstablished | .removeConnectionInLoop | .sendInLoop | .startReadInLoop
  | .stopReadInLoop | .writeCompleteCallback | .highWaterMarkCallback | .shutdownInLoop => .ok s

/-- A callback of the channel is called. -/
def callChannel (s : Lifespan) (build : Build) : ChannelCallback → Except Fault Lifespan
  | .close | .readEnd => s.handleClose build
  | .write sent => s.handleWrite build sent
  | .error | .readMessage | .readError => .ok s

/-- The states in which a call goes on. -/
def Passes (c : ConnCall) (state : StateE) : Prop :=
  match c with
  | .send | .shutdown => state = .kConnected
  | .forceClose => state = .kConnected ∨ state = .kDisconnecting
  | .startRead | .stopRead => True

instance (c : ConnCall) (state : StateE) : Decidable (Passes c state) :=
  match c with
  | .send | .shutdown => inferInstanceAs (Decidable (_ = _))
  | .forceClose => inferInstanceAs (Decidable (_ ∨ _))
  | .startRead | .stopRead => inferInstanceAs (Decidable True)

/-- The functor of a call. -/
def functorOf : ConnCall → Naming
  | .send => .sendInLoop
  | .shutdown => .shutdownInLoop
  | .forceClose => .forceCloseInLoop
  | .startRead => .startReadInLoop
  | .stopRead => .stopReadInLoop

/-- The state after a call has set it. -/
def stateAfter (c : ConnCall) (state : StateE) : StateE :=
  match c with
  | .shutdown | .forceClose => .kDisconnecting
  | .send | .startRead | .stopRead => state

/-- What a call comes to on the thread of the loop, where `runInLoop` runs the functor at once. -/
def callHere (s : Lifespan) (build : Build) (c : ConnCall) (sent : Sent) :
    Except Fault Lifespan :=
  match c with
  -- `forceClose` queues in every thread
  | .forceClose => .ok (s.queueInLoop .io .forceCloseInLoop)
  | .send | .shutdown | .startRead | .stopRead => s.callFunctor build sent (functorOf c)

/-! ## Steps -/

/-- The code of the connection hands a reference to a callback of users. -/
def HandsOut (s : Lifespan) : Prop :=
  s.Held ∧ (s.inCallback = true ∨
    (s.rounds .io).calling = true ∧ ∃ f ∈ (s.rounds .io).left.head?, f.Strong)

instance : DecidablePred HandsOut := fun s ↦
  inferInstanceAs (Decidable (_ ∧ (_ ∨ _ ∧ ∃ f ∈ (s.rounds .io).left.head?, _)))

/-- The thread holds a reference, and is in no call. -/
def Free (s : Lifespan) (u : ℕ) : Prop :=
  u ∈ s.holders ∧ u ∉ s.calls.map Prod.fst ∧ u ∉ s.queueing.map Prod.fst

instance (s : Lifespan) : DecidablePred s.Free := fun _ ↦ inferInstanceAs (Decidable (_ ∧ _))

/-- The loop is in none of the handlers of the connection, and goes to none in this round. -/
def Done (s : Lifespan) (loop : LoopRole) : Prop :=
  loop = .io → s.active = false ∧ s.handling = false

instance (s : Lifespan) : DecidablePred s.Done := fun _ ↦ inferInstanceAs (Decidable (_ → _))

def setRound (s : Lifespan) (loop : LoopRole) (r : Round) : Lifespan :=
  { s with rounds := Function.update s.rounds loop r }

/-- A reference is gone from the thread of the loop. If it was the last one the socket is closed. -/
def released (s : Lifespan) : Lifespan := if s.Held then s else { s with standing := .removed }

/-- What is left when the batch of the loop is destroyed. -/
def ended (s : Lifespan) (loop : LoopRole) : Lifespan :=
  s.setRound loop { s.rounds loop with functors := [] }

/-- The batch is destroyed on the thread of its loop. -/
def batchEnds (s : Lifespan) : LoopRole → Lifespan
  | .base => s.ended .base
  | .io => (s.ended .io).released

inductive Step
  /-- A user thread gets a reference, from a callback or from another thread. -/
  | acquires (u : ℕ)
  | drops (u : ℕ)
  /-- The thread is that of the loop. -/
  | dropsHere (u : ℕ)
  /-- Another thread that has dropped the last reference closes the socket. -/
  | closes
  | callBegins (u : ℕ) (c : ConnCall)
  | callSets (u : ℕ) (c : ConnCall)
  | callQueues (u : ℕ) (c : ConnCall)
  /-- The thread is that of the loop. -/
  | callHere (u : ℕ) (c : ConnCall) (sent : Sent)
  /-- `poll` returns with an event of the channel. -/
  | reports
  | handleEvent
  | callback (c : ChannelCallback)
  | callbackReturns
  | eventReturns
  /-- A loop takes its queue. -/
  | swap (loop : LoopRole)
  | calls (loop : LoopRole) (sent : Sent)
  | returns (loop : LoopRole)
  /-- The batch has run and is destroyed. -/
  | ends (loop : LoopRole)
  deriving DecidableEq, Repr

def step (build : Build) (s : Lifespan) : Step → Except Fault Lifespan
  | .acquires u =>
    if u ∉ s.holders ∧ (s.HandsOut ∨ s.holders ≠ []) then
      .ok { s with holders := s.holders ++ [u] }
    else .error .impossible
  | .drops u =>
    if s.Free u then .ok { s with holders := s.holders.erase u } else .error .impossible
  | .dropsHere u =>
    if s.Free u then .ok (released { s with holders := s.holders.erase u })
    else .error .impossible
  | .closes => if s.Held then .error .impossible else .ok { s with standing := .removed }
  | .callBegins u c =>
    if s.Free u then
      if Passes c s.state then .ok { s with calls := s.calls ++ [(u, c)] } else .ok s
    else .error .impossible
  | .callSets u c =>
    if (u, c) ∈ s.calls then
      .ok { s.setState (stateAfter c s.state) with
        calls := s.calls.erase (u, c), queueing := s.queueing ++ [(u, c)] }
    else .error .impossible
  | .callQueues u c =>
    if (u, c) ∈ s.queueing then
      .ok ({ s with queueing := s.queueing.erase (u, c) }.queueInLoop .io (functorOf c))
    else .error .impossible
  | .callHere u c sent =>
    if (u, c) ∈ s.queueing then
      callHere { s with queueing := s.queueing.erase (u, c) } build c sent
    else .error .impossible
  | .reports =>
    if s.standing = .added ∧ (s.rounds .io).functors = [] ∧ s.Done .io then
      .ok { s with active := true }
    else .error .impossible
  | .handleEvent =>
    if s.active = true then do
      s.follow
      .ok { s with active := false, handling := true }
    else .error .impossible
  | .callback c =>
    if s.handling = true ∧ s.inCallback = false then do
      s.follow
      let called ← s.callChannel build c
      .ok { called with inCallback := true }
    else .error .impossible
  | .callbackReturns =>
    if s.inCallback = true then do
      s.follow
      .ok { s.closeCallback with inCallback := false }
    else .error .impossible
  | .eventReturns =>
    if s.handling = true ∧ s.inCallback = false then do
      s.follow
      .ok { s with handling := false }
    else .error .impossible
  | .swap loop =>
    if (s.rounds loop).functors = [] ∧ s.Done loop then
      .ok (s.setRound loop (.taken (s.rounds loop).pendingFunctors))
    else .error .impossible
  | .calls loop sent =>
    match (s.rounds loop).left, (s.rounds loop).calling with
    | f :: _, false => do
      s.follow
      let called ← s.callFunctor build sent f
      .ok (called.setRound loop { called.rounds loop with calling := true })
    | [], _ | _ :: _, true => .error .impossible
  | .returns loop =>
    match (s.rounds loop).left, (s.rounds loop).calling with
    | f :: fs, true => do
      s.follow
      let finished ← s.finishFunctor build f
      .ok (finished.setRound loop { finished.rounds loop with left := fs, calling := false })
    | [], _ | _ :: _, false => .error .impossible
  | .ends loop =>
    if (s.rounds loop).left = [] then .ok (s.batchEnds loop) else .error .impossible

end Lifespan

end TcpServer

end Twnl
