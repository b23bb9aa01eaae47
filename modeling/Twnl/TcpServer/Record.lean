import Twnl.TcpServer.Handover

/-!
# What a step does to the record

Most steps neither accept nor remove: they leave the map, the names, and the record of the removals
and of the close callbacks as they are. So everything about these can be derived from one inversion
(`step_recorded`), which says of each step what is left to look at.
-/

namespace Twnl

namespace TcpServer

open ServerSession

/-- The server, the names and the record of the removals are the same. -/
structure SameRecord (s s' : ServerSession) : Prop where
  server : s'.server = s.server
  accepted : s'.accepted = s.accepted
  name : ∀ i, (s'.conn i).name = (s.conn i).name
  overwritten : s'.overwritten = s.overwritten
  fired : s'.fired = s.fired
  erased : s'.erased = s.erased

variable {s s' t : ServerSession} {i : Step} {id loop : ℕ} {f : ServerFunctor}

namespace SameRecord

theorem refl (s : ServerSession) : SameRecord s s := ⟨rfl, rfl, fun _ ↦ rfl, rfl, rfl, rfl⟩

theorem trans (h : SameRecord s s') (h' : SameRecord s' t) : SameRecord s t :=
  ⟨h'.server.trans h.server, h'.accepted.trans h.accepted, fun i ↦ (h'.name i).trans (h.name i),
    h'.overwritten.trans h.overwritten, h'.fired.trans h.fired, h'.erased.trans h.erased⟩

theorem removals (h : SameRecord s s') : removals s' = removals s := by
  rw [TcpServer.removals, h.erased, TcpServer.removals]

theorem setState (s : ServerSession) (id : ℕ) (state : StateE) :
    SameRecord s (s.setState id state) :=
  ⟨rfl, rfl, setState_name s id state, rfl, rfl, rfl⟩

theorem withQueues (s : ServerSession) (queues : ℕ → List ServerFunctor) :
    SameRecord s { s with queues := queues } :=
  ⟨rfl, rfl, fun _ ↦ rfl, rfl, rfl, rfl⟩

theorem queueInLoop (s : ServerSession) (loop : ℕ) (f : ServerFunctor) :
    SameRecord s (s.queueInLoop loop f) :=
  withQueues s _

theorem connectEstablished (hs' : s.connectEstablished loop id = .ok s') : SameRecord s s' := by
  obtain ⟨⟨⟩, -, hs'⟩ := bind_eq_ok.mp hs'
  obtain rfl := Except.ok.inj hs'
  exact (setState s id .kConnected).trans ⟨rfl, rfl, fun _ ↦ rfl, rfl, rfl, rfl⟩

theorem connectDestroyed (s : ServerSession) (loop id : ℕ) :
    SameRecord s (s.connectDestroyed loop id) := by
  rw [ServerSession.connectDestroyed]
  split
  · exact (setState s id .kDisconnected).trans ⟨rfl, rfl, fun _ ↦ rfl, rfl, rfl, rfl⟩
  · exact ⟨rfl, rfl, fun _ ↦ rfl, rfl, rfl, rfl⟩

theorem handleClose (hs' : s.handleClose id = .ok s') : SameRecord s s' := by
  obtain ⟨⟨⟩, -, hs'⟩ := bind_eq_ok.mp hs'
  obtain rfl := Except.ok.inj hs'
  exact (setState s id .kDisconnected).trans ⟨rfl, rfl, fun _ ↦ rfl, rfl, rfl, rfl⟩

theorem forceCloseInLoop (hs' : s.forceCloseInLoop id = .ok s') : SameRecord s s' := by
  rw [ServerSession.forceCloseInLoop] at hs'
  split at hs'
  · exact handleClose hs'
  · obtain rfl := Except.ok.inj hs'
    exact refl s

theorem setCall (s : ServerSession) (c : StateCall) (id : ℕ) : SameRecord s (s.setCall c id) :=
  (setState s id .kDisconnecting).trans ⟨rfl, rfl, fun _ ↦ rfl, rfl, rfl, rfl⟩

end SameRecord

/-! ## The inversion -/

/-- The session with the changes that a functor makes to the record. -/
def recordedFunctor (s : ServerSession) : ServerFunctor → ServerSession
  | .removeConnectionInLoop id => s.removeConnectionInLoop id
  | .connectEstablished _ | .connectDestroyed _ | .shutdownInLoop _ | .forceCloseInLoop _ => s

/-- The session with the changes that a step makes to the record. -/
def recorded (s : ServerSession) : Step → ServerSession
  | .accept => listedConnection s
  | .closeCallback id => s.removeConnection id
  | .pending loop => (s.queues loop).head?.elim s (recordedFunctor s)
  | .closes _ | .callBegins _ _ | .callSets _ _ | .callEnds _ _ => s

theorem runFunctor_recorded {queues : ℕ → List ServerFunctor}
    (hs' : runFunctor { s with queues := queues } loop f = .ok s') :
    SameRecord (recordedFunctor s f) s' := by
  have hqueues := SameRecord.withQueues s queues
  cases f with
  | connectEstablished id => exact hqueues.trans (SameRecord.connectEstablished hs')
  | removeConnectionInLoop id =>
    obtain rfl := Except.ok.inj hs'
    exact ⟨rfl, rfl, fun _ ↦ rfl, rfl, rfl, rfl⟩
  | connectDestroyed id =>
    obtain rfl := Except.ok.inj hs'
    exact hqueues.trans (SameRecord.connectDestroyed _ loop id)
  | shutdownInLoop id =>
    obtain rfl := Except.ok.inj hs'
    exact hqueues
  | forceCloseInLoop id => exact hqueues.trans (SameRecord.forceCloseInLoop hs')

theorem newConnection_recorded (hs' : s.newConnection = .ok s') :
    SameRecord (listedConnection s) s' := by
  rw [newConnection_eq] at hs'
  split at hs'
  · exact SameRecord.connectEstablished hs'
  · obtain rfl := Except.ok.inj hs'
    exact SameRecord.queueInLoop _ _ _

theorem removeConnection_recorded (s : ServerSession) (closing : List ℕ) (id : ℕ) :
    SameRecord (s.removeConnection id) (removeConnection { s with closing := closing } id) := by
  rw [ServerSession.removeConnection, ServerSession.removeConnection]
  dsimp only
  split <;> exact ⟨rfl, rfl, fun _ ↦ rfl, rfl, rfl, rfl⟩

/-- The inversion. -/
theorem step_recorded (hs' : step s i = .ok s') : SameRecord (recorded s i) s' := by
  cases i with
  | accept => exact newConnection_recorded hs'
  | closes id => exact SameRecord.handleClose (ite_eq_ok.mp hs').2
  | closeCallback id =>
    obtain ⟨-, hs'⟩ := ite_eq_ok.mp hs'
    obtain rfl := Except.ok.inj hs'
    exact removeConnection_recorded s _ id
  | callBegins c id =>
    obtain ⟨-, hs'⟩ := ite_eq_ok.mp hs'
    split at hs' <;> obtain rfl := Except.ok.inj hs'
    · exact ⟨rfl, rfl, fun _ ↦ rfl, rfl, rfl, rfl⟩
    · exact SameRecord.refl s
  | callSets c id =>
    obtain ⟨-, hs'⟩ := ite_eq_ok.mp hs'
    obtain rfl := Except.ok.inj hs'
    exact SameRecord.setCall s c id
  | callEnds c id =>
    obtain ⟨-, hs'⟩ := ite_eq_ok.mp hs'
    obtain rfl := Except.ok.inj hs'
    exact ⟨rfl, rfl, fun _ ↦ rfl, rfl, rfl, rfl⟩
  | pending loop =>
    rw [step] at hs'
    split at hs'
    · rename_i f fs hfs
      rw [recorded, hfs]
      exact runFunctor_recorded hs'
    · exact absurd hs' error_ne_ok

/-! ## Names -/

/-- The name of a connection. -/
def connNameAt (name : List Char) (i : ℕ) : List Char :=
  name ++ snprintf 64 ('-' :: '#' :: decimal (connIdAt i))

/-- While the counter has not started over the number is printed whole. -/
theorem connNameAt_eq {name : List Char} {i : ℕ} (h : i + 1 < 2 ^ 31) :
    connNameAt name i = name ++ '-' :: '#' :: decimalDigits (i + 1) := by
  have hlen := length_decimalDigits h
  rw [connNameAt, connIdAt_eq h, decimal_natCast, snprintf, List.take_of_length_le]
  rw [List.length_cons, List.length_cons]
  omega

theorem connNameAt_inj {name : List Char} {i j : ℕ} (hi : i + 1 < 2 ^ 31) (hj : j + 1 < 2 ^ 31)
    (h : connNameAt name i = connNameAt name j) : i = j := by
  rw [connNameAt_eq hi, connNameAt_eq hj] at h
  have hdigits := List.append_cancel_left h
  rw [List.cons.injEq, List.cons.injEq] at hdigits
  exact Nat.succ.inj (decimalDigits_inj hdigits.2.2)

end TcpServer

end Twnl
