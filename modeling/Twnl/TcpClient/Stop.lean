import Twnl.TcpClient.Basic

/-!
# A client that was stopped

`stop` clears two flags, one of the client and one of its connector, and between them they close
every way to a new connection: a timer and a failed attempt ask the connector's, a writable socket
asks it before the connection is handed over, and a connection that closes asks the client's before
the connector is restarted, which would set the connector's again. So nothing is started any more,
whatever was under way, until `connect` is called (`stop_final`).

Whether a socket is made cannot be read off the state alone, since one that fails is closed at once.
But what is made of a socket depends on the socket, so that a step that makes one has as many
results as there are answers (`connect_depends`): it is made by no step that has one result for all
of them.
-/

namespace Twnl

namespace TcpClient

open Connector Machine ClientSession

/-- The step, with another answer to the attempt it would make. -/
def Step.withAttempt (a : Attempt) : Step → Step
  | .call (.connect _) => .call (.connect a)
  | .expires batch => .expires batch
  | .fires _ => .fires a
  | .callbackReturns _ => .callbackReturns a
  | .call c => .call c
  | .handleEvent revents err isSelfConnect => .handleEvent revents err isSelfConnect
  | .closes id => .closes id
  | .dispatched => .dispatched
  | .pending => .pending
  | .poll => .poll

/-- Nothing is started: what the step does is the same for every socket that `Connector::connect`
could make and so it makes none, no connection is made, and the connector, which `restart` would
set to connect, is not. -/
structure Still (s : ClientSession) (i : Step) : Prop where
  connect : ∀ a, step s (i.withAttempt a) = step s i
  outcome : Outcome (step s i) (fun s' ↦ s'.opened = s.opened ∧ s'.attempts ⊆ s.attempts ∧
    s'.established ⊆ s.established ∧ s'.connector.connect = false) fun _ ↦ True

/-- What `Connector::connect` does depends on the socket and the error it gets. -/
theorem connect_depends (s : ClientSession) : ∃ a b : Attempt, s.connect a ≠ s.connect b := by
  refine ⟨⟨0, some .EACCES⟩, ⟨1, some .EACCES⟩, fun h ↦ ?_⟩
  have hclosed := congrArg ClientSession.closed (Except.ok.inj h)
  have hlast := List.append_cancel_left hclosed
  exact absurd (List.singleton_inj.mp hlast) (by decide)

/-- So does what `Connector::restart` does, which always connects. -/
theorem restart_depends (s : ClientSession) : ∃ a b : Attempt, s.restart a ≠ s.restart b :=
  connect_depends { s with connector := { s.connector with
    state := .kDisconnected, retryDelayMs := kInitRetryDelayMs, connect := true } }

/-- The two flags are clear. -/
structure Stopped (s : ClientSession) : Prop where
  connector : s.connector.connect = false
  client : s.client.connect = false

variable {s s' t : ClientSession} {i : Step} {a : Attempt}

/-- What leaves a stopped client as it should be: the flags stay clear, and nothing is added. -/
structure Settles (s s' : ClientSession) : Prop extends Stopped s' where
  opened : s'.opened = s.opened
  attempts : s'.attempts ⊆ s.attempts
  established : s'.established ⊆ s.established

theorem Stopped.refl (h : Stopped s) : Settles s s :=
  ⟨h, rfl, List.Subset.refl _, List.Subset.refl _⟩

theorem Settles.trans (h : Settles s t) (h' : Settles t s') : Settles s s' :=
  ⟨h'.toStopped, h'.opened.trans h.opened, List.Subset.trans h'.attempts h.attempts,
    List.Subset.trans h'.established h.established⟩

/-! ## The connector -/

/-- A failed attempt is not tried again. -/
theorem Stopped.retry (h : Stopped s) (sockfd : ℤ) : Settles s (s.retry sockfd) := by
  rw [ClientSession.retry, if_neg (by rw [h.connector]; exact Bool.false_ne_true)]
  exact ⟨⟨h.connector, h.client⟩, rfl, List.Subset.refl _, List.Subset.refl _⟩

theorem Stopped.removeAndResetChannel (h : Stopped s) (c : AttemptChannel) :
    Settles s (s.removeAndResetChannel c) :=
  ⟨⟨h.connector, h.client⟩, rfl, List.erase_subset, List.Subset.refl _⟩

theorem Stopped.removeAndRetry (h : Stopped s) (c : AttemptChannel) :
    Settles s ((s.removeAndResetChannel c).retry c.fd) :=
  (h.removeAndResetChannel c).trans ((h.removeAndResetChannel c).toStopped.retry c.fd)

/-- A socket that has become writable is closed. -/
theorem Stopped.handleWrite (h : Stopped s) {err : ℤ} {isSelfConnect : Bool}
    (hs' : s.handleWrite err isSelfConnect = .ok s') : Settles s s' := by
  rw [ClientSession.handleWrite] at hs'
  split at hs'
  · split at hs'
    · exact Except.ok.inj hs' ▸ h.removeAndRetry _
    · split at hs'
      · exact Except.ok.inj hs' ▸ h.removeAndRetry _
      · rw [if_neg (by rw [h.connector]; exact Bool.false_ne_true)] at hs'
        obtain rfl := Except.ok.inj hs'
        obtain ⟨hstopped, hopened, hattempts, hestablished⟩ := h.removeAndResetChannel _
        exact ⟨⟨hstopped.connector, hstopped.client⟩, hopened, hattempts, hestablished⟩
  · exact absurd hs' nofun
  · exact Except.ok.inj hs' ▸ h.refl
  · exact absurd hs' nofun

theorem Stopped.handleError (h : Stopped s) (hs' : s.handleError = .ok s') : Settles s s' := by
  obtain ⟨_, -, hs'⟩ := bind_eq_ok.mp hs'
  split at hs'
  · exact Except.ok.inj hs' ▸ h.removeAndRetry _
  · exact absurd hs' nofun

theorem Stopped.handleEvent (h : Stopped s) {revents : Mask} {err : ℤ} {isSelfConnect : Bool}
    (hs' : s.handleEvent revents err isSelfConnect = .ok s') : Settles s s' := by
  rw [ClientSession.handleEvent] at hs'
  by_cases herr : revents &&& EPOLLERR ≠ 0
  · rw [if_pos herr] at hs'
    obtain ⟨handled, hhandled, hs'⟩ := bind_eq_ok.mp hs'
    have herror := h.handleError hhandled
    split at hs'
    · exact herror.trans (herror.toStopped.handleWrite hs')
    · exact Except.ok.inj hs' ▸ herror
  · rw [if_neg herr, bind_ok] at hs'
    split at hs'
    · exact h.handleWrite hs'
    · exact Except.ok.inj hs' ▸ h.refl

/-- What enters `startInLoop` does not connect. -/
theorem Stopped.startInLoop (h : Stopped s) (a : Attempt) :
    s.startInLoop a = check (s.connector.state = .kDisconnected) .startInLoop >>= fun _ ↦
      .ok s := by
  rw [ClientSession.startInLoop, h.connector]
  rfl

/-- A connection that closes does not restart the connector. -/
theorem Stopped.removeConnection (h : Stopped s) (id : ℕ) (a : Attempt) :
    s.removeConnection id a = check (s.client.connection = some id) .removeConnection >>= fun _ ↦
      .ok (s.resetConnection id) := by
  rw [ClientSession.removeConnection, h.client]
  simp only [Bool.false_eq_true, and_false, if_false]

/-! ## The steps -/

/-- No call of `connect`. -/
def Step.connects : Step → Bool
  | .call (.connect _) => true
  | .call .disconnect | .call .stop | .call .enableRetry | .call (.forceClose _)
  | .handleEvent _ _ _ | .expires _ | .fires _ | .closes _ | .callbackReturns _ | .dispatched
  | .pending | .poll => false

/-- The step does the same whatever an attempt would be answered. -/
theorem Stopped.withAttempt (h : Stopped s) (hi : i.connects = false) (a : Attempt) :
    step s (i.withAttempt a) = step s i := by
  cases i with
  | call c =>
    cases c with
    | connect _ => exact absurd hi nofun
    | disconnect | stop | enableRetry | forceClose _ => rfl
  | fires b =>
    rw [Step.withAttempt, step, step]
    cases hdue : s.due with
    | nil => rfl
    | cons timer due =>
      have hstopped : Stopped { s with due := due } := ⟨h.connector, h.client⟩
      dsimp only
      rw [hstopped.startInLoop, hstopped.startInLoop]
  | callbackReturns b =>
    have hstopped : Stopped { s with callback := none } := ⟨h.connector, h.client⟩
    rw [Step.withAttempt, step, step]
    simp only [hstopped.removeConnection]
  | handleEvent _ _ _ | expires _ | closes _ | dispatched | pending | poll => rfl

/-- The step lemma. -/
theorem Stopped.step (h : Stopped s) (hi : i.connects = false)
    (hs' : TcpClient.step s i = .ok s') : Settles s s' := by
  have hkeep {u : ClientSession} (hconnector : u.connector.connect = s.connector.connect)
      (hclient : u.client.connect = s.client.connect)
      (hopened : u.opened = s.opened) (hattempts : u.attempts = s.attempts)
      (hestablished : u.established ⊆ s.established) : Settles s u :=
    ⟨⟨hconnector.trans h.connector, hclient.trans h.client⟩, hopened,
      hattempts ▸ List.Subset.refl _, hestablished⟩
  cases i with
  | call c =>
    cases c with
    | connect _ => exact absurd hi nofun
    | disconnect =>
      obtain rfl := Except.ok.inj hs'
      exact ⟨⟨h.connector, rfl⟩, rfl, List.Subset.refl _, List.Subset.refl _⟩
    | stop =>
      obtain rfl := Except.ok.inj hs'
      rw [connectorStop]
      cases htimer : s.connector.timer <;>
        exact ⟨⟨rfl, rfl⟩, rfl, List.Subset.refl _, List.Subset.refl _⟩
    | enableRetry => exact Except.ok.inj hs' ▸ hkeep rfl rfl rfl rfl (List.Subset.refl _)
    | forceClose id =>
      obtain rfl := Except.ok.inj hs'
      rw [forceClose]
      split <;> exact hkeep rfl rfl rfl rfl (List.Subset.refl _)
  | handleEvent revents err isSelfConnect => exact h.handleEvent (ite_eq_ok.mp hs').2
  | expires batch =>
    exact Except.ok.inj (ite_eq_ok.mp hs').2 ▸ hkeep rfl rfl rfl rfl (List.Subset.refl _)
  | fires a =>
    rw [TcpClient.step] at hs'
    split at hs'
    · rename_i due _
      have hstopped : Stopped { s with due := due } := ⟨h.connector, h.client⟩
      rw [hstopped.startInLoop] at hs'
      obtain ⟨_, -, hs'⟩ := bind_eq_ok.mp hs'
      exact Except.ok.inj hs' ▸ hkeep rfl rfl rfl rfl (List.Subset.refl _)
    · exact absurd hs' nofun
  | closes id =>
    obtain rfl := Except.ok.inj (ite_eq_ok.mp hs').2
    exact hkeep rfl rfl rfl rfl List.erase_subset
  | callbackReturns a =>
    have hstopped : Stopped { s with callback := none } := ⟨h.connector, h.client⟩
    rw [TcpClient.step] at hs'
    split at hs'
    · exact Except.ok.inj hs' ▸ hkeep rfl rfl rfl rfl (List.Subset.refl _)
    · rw [hstopped.removeConnection] at hs'
      obtain ⟨_, -, hs'⟩ := bind_eq_ok.mp hs'
      exact Except.ok.inj hs' ▸ hkeep rfl rfl rfl rfl (List.Subset.refl _)
    · exact absurd hs' nofun
  | dispatched =>
    exact Except.ok.inj (ite_eq_ok.mp hs').2 ▸ hkeep rfl rfl rfl rfl (List.Subset.refl _)
  | pending =>
    rw [TcpClient.step] at hs'
    split at hs'
    · rename_i f fs _ _ _
      obtain rfl := Except.ok.inj hs'
      cases f with
      | resetChannel | connectDestroyed _ => exact hkeep rfl rfl rfl rfl (List.Subset.refl _)
      | forceClose id =>
        rw [ClientSession.runFunctor]
        split
        · exact hkeep rfl rfl rfl rfl List.erase_subset
        · exact hkeep rfl rfl rfl rfl (List.Subset.refl _)
    · exact absurd hs' nofun
    · exact absurd hs' nofun
    · exact absurd hs' nofun
    · exact absurd hs' nofun
  | poll => exact Except.ok.inj (ite_eq_ok.mp hs').2 ▸ hkeep rfl rfl rfl rfl (List.Subset.refl _)

theorem Stopped.still (h : Stopped s) (hi : i.connects = false) : Still s i := by
  refine ⟨h.withAttempt hi, outcome_of (fun s' hs' ↦ ?_) fun _ _ ↦ trivial⟩
  have hsettles := h.step hi hs'
  exact ⟨hsettles.opened, hsettles.attempts, hsettles.established, hsettles.connector⟩

/-- What `stop` leaves, whatever was under way. -/
theorem stopped_stop (hs' : step s (.call .stop) = .ok s') : Stopped s' := by
  obtain rfl := Except.ok.inj hs'
  rw [connectorStop]
  cases htimer : s.connector.timer <;> exact ⟨rfl, rfl⟩

/-- **`stop` is final.** After `stop` and as long as `connect` is not called, no step makes a
socket, makes a connection or restarts the connector. -/
theorem stop_final {before after : List Step}
    (hrun : run step .start (before ++ [.call .stop]) = .ok t)
    (hafter : ∀ i ∈ after, i.connects = false) : Along step Still t after := by
  obtain ⟨s, -, hstop⟩ := run_append_eq_ok.mp hrun
  obtain ⟨t', ht', hnil⟩ := run_cons_eq_ok.mp hstop
  obtain rfl := Except.ok.inj hnil
  exact Along.guarantee (Q := fun _ i ↦ i.connects = false)
    (fun _ _ _ h hi hs' ↦ (h.step hi hs').toStopped) (fun _ _ h hi ↦ h.still hi)
    (along_of_forall hafter) (stopped_stop ht')

/-- A client that is stopped while its socket is being connected: the socket becomes writable. -/
theorem stop_final_connecting :
    ∃ t, run step .start [.call .enableRetry, .call (.connect ⟨7, some .EINPROGRESS⟩), .call .stop]
        = .ok t ∧ Along step Still t [.handleEvent EPOLLOUT 0 false, .dispatched, .pending, .poll] ∧
      Outcome (run step t [.handleEvent EPOLLOUT 0 false, .dispatched, .pending, .poll])
        (fun t' ↦ t'.closed = [7] ∧ t'.established = []) fun _ ↦ False :=
  ⟨_, rfl, stop_final (show run step .start ([.call .enableRetry,
    .call (.connect ⟨7, some .EINPROGRESS⟩)] ++ [.call .stop]) = .ok _ from rfl) (by decide),
    by decide⟩

end TcpClient

end Twnl
