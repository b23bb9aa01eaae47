import Twnl.Connector.Sockets
import Twnl.Machine.Simulation
import Twnl.TcpClient.Destruction

/-!
# The connector of a client

The connector that a client has is a connector in its own right: what a run of the client does with
it is a run of a `ConnectorSession`, in which the timers that have expired are called in their
order, every call is on the loop's thread, and the functors and the timers are those of the client
(`refines_connector`).

The client restarts its connector once for each connection it was handed, when that has closed. So
the law of the connector's sockets is a law of the client's: each socket that was made is being
connected, was closed by the connector, or became a connection, once (`sockets_conserved`). Sockets
are told apart by their numbers, which are not used twice in the runs this is about.
-/

namespace Twnl

namespace TcpClient

open Connector Machine

/-! ## What a client does with its connector -/

/-- The functor, if it is one of the connector. -/
def ClientFunctor.toConnector : ClientFunctor → Option ConnectorFunctor
  | .resetChannel => some .resetChannel
  | .forceClose _ => none
  | .connectDestroyed _ => none

/-- The steps of the connector in a step of the client. -/
def connectorSteps (c : ClientSession) : Step → List ConnectorSession.Step
  | .call (.connect a) => [.start .loop a]
  | .call .stop => [.stop .loop]
  | .call .disconnect | .call .enableRetry | .call (.forceClose _) => []
  | .handleEvent revents err isSelfConnect =>
    match c.connector.channel with
    | some channel => [.handleEvent channel.fd revents err isSelfConnect]
    | none => []
  | .expires batch => batch.map .expires
  | .fires a =>
    match c.due with
    | timer :: _ => [.fires timer a]
    | [] => []
  | .callbackReturns a =>
    match c.callback with
    | some (.down _) => if c.client.retry ∧ c.client.connect then [.restart a] else []
    | some (.up _) | none => []
  | .pending =>
    match c.pendingFunctors with
    | .resetChannel :: _ => [.pending ⟨0, none⟩]
    | .forceClose _ :: _ | .connectDestroyed _ :: _ | [] => []
  | .closes _ | .dispatched | .poll => []

/-- The sockets that `Connector::connect` makes in a step. -/
def made (c : ClientSession) : Step → List ℤ
  | .call (.connect a) => [a.sockfd]
  | .fires a => if c.connector.connect then [a.sockfd] else []
  | .callbackReturns a =>
    match c.callback with
    | some (.down _) => if c.client.retry ∧ c.client.connect then [a.sockfd] else []
    | some (.up _) | none => []
  | .call .stop | .call .disconnect | .call .enableRetry | .call (.forceClose _)
  | .handleEvent _ _ _ | .expires _ | .closes _ | .dispatched | .pending | .poll => []

/-- The connector of a client, with the connections it has handed over and the restarts it has been
paid for. -/
structure Refines (c : ClientSession) (t : ConnectorSession) : Prop where
  connector : t.connector = c.connector
  poller : t.poller = c.attempts
  timers : t.timers = c.timers
  due : t.due = c.due
  nextTimer : t.nextTimer = c.nextTimer
  pending : t.pendingFunctors = c.pendingFunctors.filterMap ClientFunctor.toConnector
  alive : t.destroyed = false
  closed : t.closed = c.closed
  handed : t.handedOver.length = c.opened
  paid : t.restarts + c.client.connection.toList.length ≤ t.handedOver.length

variable {c c' : ClientSession} {t : ConnectorSession} {a : Attempt} {i : Step} {fd : ℤ}
  {channel : AttemptChannel} {j : ConnectorSession.Step}

theorem refines_start : Refines .start .new :=
  ⟨rfl, rfl, rfl, rfl, rfl, rfl, rfl, rfl, rfl, Nat.le_refl 0⟩

/-! ## The connector's functions -/

/-- After an error the connector is disconnected. -/
theorem handleError_state (hc' : c.handleError = .ok c') :
    c'.connector.state = .kDisconnected := by
  obtain ⟨-, channel, -, rfl⟩ := handleError_eq_ok hc'
  rw [ClientSession.retry]
  split <;> rfl

namespace Refines

theorem close (h : Refines c t) (fd : ℤ) : Refines (c.close fd) (t.close fd) :=
  ⟨h.connector, h.poller, h.timers, h.due, h.nextTimer, h.pending, h.alive,
    congrArg (· ++ [fd]) h.closed, h.handed, h.paid⟩

theorem setState (h : Refines c t) (state : States) :
    Refines (c.setState state) (t.setState state) :=
  ⟨congrArg (fun k ↦ { k with state := state }) h.connector, h.poller, h.timers, h.due,
    h.nextTimer, h.pending, h.alive, h.closed, h.handed, h.paid⟩

theorem setConnect (h : Refines c t) (connect : Bool) :
    Refines (c.setConnect connect) (t.setConnect connect) :=
  ⟨congrArg (fun k ↦ { k with connect := connect }) h.connector, h.poller, h.timers, h.due,
    h.nextTimer, h.pending, h.alive, h.closed, h.handed, h.paid⟩

theorem runAfter (h : Refines c t) : Refines c.runAfter t.runAfter := by
  refine ⟨?_, h.poller, ?_, h.due, ?_, h.pending, h.alive, h.closed, h.handed, h.paid⟩
  · rw [ClientSession.runAfter, ConnectorSession.runAfter, h.connector, h.nextTimer]
  · rw [ClientSession.runAfter, ConnectorSession.runAfter, h.timers, h.nextTimer]
  · rw [ClientSession.runAfter, ConnectorSession.runAfter, h.nextTimer]

theorem retry (h : Refines c t) (fd : ℤ) : Refines (c.retry fd) (t.retry fd) := by
  have hclosed := (h.close fd).setState .kDisconnected
  rw [ClientSession.retry, ConnectorSession.retry, h.connector]
  split
  · exact hclosed.runAfter
  · exact hclosed

theorem connecting (h : Refines c t) (hc' : c.connecting fd = .ok c') :
    ∃ t', t.connecting fd = .ok t' ∧ Refines c' t' ∧ t'.created = t.created := by
  obtain ⟨⟨⟩, hfree, hc'⟩ := bind_eq_ok.mp hc'
  obtain rfl := Except.ok.inj hc'
  rw [← h.connector] at hfree
  refine ⟨_, bind_eq_ok.mpr ⟨(), hfree, rfl⟩, ⟨?_, ?_, h.timers, h.due, h.nextTimer, h.pending,
    h.alive, h.closed, h.handed, h.paid⟩, rfl⟩
  · exact congrArg (fun k ↦ { k with state := .kConnecting, channel := some ⟨fd, true⟩ })
      h.connector
  · exact congrArg (· ++ [fd]) h.poller

theorem connect (h : Refines c t) (hnew : a.sockfd ∉ t.created) (hc' : c.connect a = .ok c') :
    ∃ t', t.connect a = .ok t' ∧ Refines c' t' ∧ t'.created = t.created ++ [a.sockfd] := by
  have hmade : Refines c { t with created := t.created ++ [a.sockfd] } :=
    ⟨h.connector, h.poller, h.timers, h.due, h.nextTimer, h.pending, h.alive, h.closed, h.handed,
      h.paid⟩
  have hretry := (ConnectorSession.retry_frame { t with created := t.created ++ [a.sockfd] }
    a.sockfd).2.2.2.2.1
  rw [ConnectorSession.connect, if_neg hnew]
  rw [ClientSession.connect] at hc'
  cases herrno : a.errno with
  | none =>
    rw [herrno] at hc'
    exact hmade.connecting hc'
  | some errno =>
    rw [herrno] at hc'
    cases errno
    all_goals first
      | exact hmade.connecting hc'
      | exact ⟨_, rfl, Except.ok.inj hc' ▸ hmade.retry a.sockfd, hretry⟩
      | exact ⟨_, rfl, Except.ok.inj hc' ▸ hmade.close a.sockfd, rfl⟩

theorem startInLoop (h : Refines c t)
    (hnew : ∀ fd ∈ (if c.connector.connect then [a.sockfd] else []), fd ∉ t.created)
    (hc' : c.startInLoop a = .ok c') :
    ∃ t', t.startInLoop a = .ok t' ∧ Refines c' t' ∧
      t'.created = t.created ++ (if c.connector.connect then [a.sockfd] else []) := by
  obtain ⟨⟨⟩, hstate, hc'⟩ := bind_eq_ok.mp hc'
  rw [ConnectorSession.startInLoop, h.connector, hstate, bind_ok]
  by_cases hconnect : c.connector.connect = true
  · rw [if_pos hconnect] at hc' hnew ⊢
    rw [if_pos hconnect]
    exact h.connect (hnew _ List.mem_cons_self) hc'
  · rw [if_neg hconnect] at hc' ⊢
    rw [if_neg hconnect, List.append_nil]
    exact ⟨t, rfl, Except.ok.inj hc' ▸ h, rfl⟩

theorem removeAndResetChannel (h : Refines c t) (hchannel : c.connector.channel = some channel) :
    ∃ t', t.removeAndResetChannel = .ok (t', channel.fd) ∧
      Refines (c.removeAndResetChannel channel) t' ∧ t'.created = t.created := by
  rw [ConnectorSession.removeAndResetChannel, h.connector, hchannel]
  refine ⟨_, rfl, ⟨rfl, ?_, h.timers, h.due, h.nextTimer, ?_, h.alive, h.closed, h.handed, h.paid⟩,
    rfl⟩
  · exact congrArg (List.erase · channel.fd) h.poller
  · change t.pendingFunctors ++ [.resetChannel] = (c.pendingFunctors ++ [_]).filterMap _
    rw [List.filterMap_append, h.pending]
    rfl

/-- The attempt that has ended is made again, if at all, after a while. -/
theorem retries (h : Refines c t) (hchannel : c.connector.channel = some channel) :
    ∃ t' fd, t.removeAndResetChannel = .ok (t', fd) ∧
      Refines ((c.removeAndResetChannel channel).retry channel.fd) (t'.retry fd) ∧
      (t'.retry fd).created = t.created := by
  obtain ⟨t', ht', href, hcreated⟩ := h.removeAndResetChannel hchannel
  exact ⟨t', channel.fd, ht', href.retry channel.fd,
    (ConnectorSession.retry_frame t' channel.fd).2.2.2.2.1.trans hcreated⟩

theorem handleError (h : Refines c t) (hc' : c.handleError = .ok c') :
    ∃ t', t.handleError = .ok t' ∧ Refines c' t' ∧ t'.created = t.created := by
  obtain ⟨hstate, channel, hchannel, rfl⟩ := handleError_eq_ok hc'
  obtain ⟨t', fd, ht', href, hcreated⟩ := h.retries hchannel
  rw [← h.connector] at hstate
  exact ⟨_, bind_eq_ok.mpr ⟨(), check_eq_ok.mpr hstate, bind_eq_ok.mpr ⟨_, ht', rfl⟩⟩, href,
    hcreated⟩

/-- A socket that is handed over becomes a connection. -/
theorem newConnection (h : Refines c t) (hnone : c.client.connection = none) (fd : ℤ) :
    Refines c.newConnection (t.newConnection fd) := by
  have hpaid := h.paid
  rw [hnone] at hpaid
  refine ⟨h.connector, h.poller, h.timers, h.due, h.nextTimer, h.pending, h.alive, h.closed, ?_, ?_⟩
  · change (t.handedOver ++ [fd]).length = c.opened + 1
    rw [List.length_append, h.handed]
    rfl
  · change t.restarts + 1 ≤ (t.handedOver ++ [fd]).length
    rw [List.length_append]
    exact Nat.succ_le_succ hpaid

theorem handleWrite (h : Refines c t) {err : ℤ} {isSelfConnect : Bool}
    (hnone : c.connector.state = .kConnecting → c.client.connection = none)
    (hc' : c.handleWrite err isSelfConnect = .ok c') :
    ∃ t', t.handleWrite err isSelfConnect = .ok t' ∧ Refines c' t' ∧ t'.created = t.created := by
  rw [ClientSession.handleWrite] at hc'
  rw [ConnectorSession.handleWrite, h.connector]
  cases hstate : c.connector.state with
  | kDisconnected =>
    rw [hstate] at hc'
    exact ⟨t, rfl, Except.ok.inj hc' ▸ h, rfl⟩
  | kConnected =>
    rw [hstate] at hc'
    exact absurd hc' error_ne_ok
  | kConnecting =>
    cases hchannel : c.connector.channel with
    | none =>
      rw [hstate, hchannel] at hc'
      exact absurd hc' error_ne_ok
    | some channel =>
      rw [hstate, hchannel] at hc'
      obtain ⟨t', ht', href, hcreated⟩ := h.removeAndResetChannel hchannel
      have hretry := (ConnectorSession.retry_frame t' channel.fd).2.2.2.2.1.trans hcreated
      rw [ht', bind_ok]
      dsimp only at hc' ⊢
      rw [href.connector]
      -- both decide in the same way
      split at hc'
      · rename_i herr
        rw [if_pos herr]
        exact ⟨_, rfl, Except.ok.inj hc' ▸ href.retry channel.fd, hretry⟩
      · rename_i herr
        rw [if_neg herr]
        split at hc'
        · rename_i hself
          rw [if_pos hself]
          exact ⟨_, rfl, Except.ok.inj hc' ▸ href.retry channel.fd, hretry⟩
        · rename_i hself
          rw [if_neg hself]
          have hconnected := href.setState .kConnected
          split at hc'
          · rename_i hconnect
            rw [if_pos (show (c.removeAndResetChannel channel).connector.connect = true
              from hconnect)]
            exact ⟨_, rfl, Except.ok.inj hc' ▸ hconnected.newConnection (hnone hstate) channel.fd,
              hcreated⟩
          · rename_i hconnect
            rw [if_neg (show ¬(c.removeAndResetChannel channel).connector.connect = true
              from hconnect)]
            exact ⟨_, rfl, Except.ok.inj hc' ▸ hconnected.close channel.fd, hcreated⟩


/-- The event of the socket that can be written, if it is one. -/
theorem handleIfWritable (h : Refines c t) {revents : Mask} {err : ℤ} {isSelfConnect : Bool}
    (hnone : c.connector.state = .kConnecting → c.client.connection = none)
    (hc' : (if revents &&& EPOLLOUT ≠ 0 then c.handleWrite err isSelfConnect else .ok c) =
      .ok c') :
    ∃ t', (if revents &&& EPOLLOUT ≠ 0 then t.handleWrite err isSelfConnect else .ok t) = .ok t' ∧
      Refines c' t' ∧ t'.created = t.created := by
  by_cases hset : revents &&& EPOLLOUT ≠ 0
  · rw [if_pos hset] at hc' ⊢
    exact h.handleWrite hnone hc'
  · rw [if_neg hset] at hc' ⊢
    exact ⟨t, rfl, Except.ok.inj hc' ▸ h, rfl⟩

theorem handleEvent (h : Refines c t) {revents : Mask} {err : ℤ} {isSelfConnect : Bool}
    (hnone : c.connector.state = .kConnecting → c.client.connection = none)
    (hc' : c.handleEvent revents err isSelfConnect = .ok c') :
    ∃ t', t.handleEvent revents err isSelfConnect = .ok t' ∧ Refines c' t' ∧
      t'.created = t.created := by
  rw [ClientSession.handleEvent] at hc'
  rw [ConnectorSession.handleEvent]
  by_cases herror : revents &&& EPOLLERR ≠ 0
  · rw [if_pos herror] at hc' ⊢
    obtain ⟨u, hu, hc'⟩ := bind_eq_ok.mp hc'
    obtain ⟨v, hv, href, hcreated⟩ := h.handleError hu
    -- an error leaves the connector disconnected
    have hnone' : u.connector.state = .kConnecting → u.client.connection = none := by
      intro hstate
      rw [handleError_state hu] at hstate
      exact absurd hstate (by decide)
    obtain ⟨t', ht', href', hcreated'⟩ := href.handleIfWritable hnone' hc'
    rw [hv, bind_ok]
    exact ⟨t', ht', href', hcreated'.trans hcreated⟩
  · rw [if_neg herror, bind_ok] at hc' ⊢
    exact h.handleIfWritable hnone hc'

theorem stop (h : Refines c t) :
    Refines c.connectorStop (t.stop .loop) ∧ (t.stop .loop).created = t.created := by
  have hset := h.setConnect false
  rw [ConnectorSession.stop, ClientSession.connectorStop, ConnectorSession.cancelTimer,
    hset.connector]
  change Refines ((c.setConnect false).cancelTimer c.connector.timer)
    (ConnectorSession.cancelInLoop _ c.connector.timer) ∧
    (ConnectorSession.cancelInLoop _ c.connector.timer).created = t.created
  cases c.connector.timer with
  | none => exact ⟨⟨rfl, h.poller, h.timers, h.due, h.nextTimer, h.pending, h.alive, h.closed,
      h.handed, h.paid⟩, rfl⟩
  | some id => exact ⟨⟨rfl, h.poller, congrArg (List.erase · id) h.timers, h.due, h.nextTimer,
      h.pending, h.alive, h.closed, h.handed, h.paid⟩, rfl⟩

/-- The client lets go of its connection. -/
theorem resetConnection (h : Refines c t) (id : ℕ) : Refines (c.resetConnection id) t := by
  refine ⟨h.connector, h.poller, h.timers, h.due, h.nextTimer, ?_, h.alive, h.closed, h.handed,
    Nat.le_trans (Nat.le_add_right _ _) h.paid⟩
  change t.pendingFunctors = (c.pendingFunctors ++ [ClientFunctor.connectDestroyed id]).filterMap _
  rw [List.filterMap_append, h.pending]
  exact (List.append_nil _).symm

/-- What is not about the connector. -/
theorem congr (h : Refines c t) (hconnector : c'.connector = c.connector)
    (hattempts : c'.attempts = c.attempts) (htimers : c'.timers = c.timers)
    (hdue : c'.due = c.due) (hnext : c'.nextTimer = c.nextTimer)
    (hpending : c'.pendingFunctors.filterMap ClientFunctor.toConnector =
      c.pendingFunctors.filterMap ClientFunctor.toConnector)
    (hclosed : c'.closed = c.closed) (hopened : c'.opened = c.opened)
    (hconn : c'.client.connection = c.client.connection) : Refines c' t := by
  refine ⟨?_, ?_, ?_, ?_, ?_, ?_, h.alive, ?_, ?_, ?_⟩
  · exact h.connector.trans hconnector.symm
  · exact h.poller.trans hattempts.symm
  · exact h.timers.trans htimers.symm
  · exact h.due.trans hdue.symm
  · exact h.nextTimer.trans hnext.symm
  · exact h.pending.trans hpending.symm
  · exact h.closed.trans hclosed.symm
  · exact h.handed.trans hopened.symm
  · exact hconn ▸ h.paid

end Refines

/-! ## Steps -/

/-- A step of the client is matched by what it does with its connector. -/
structure Matched (c : ClientSession) (i : Step) (c' : ClientSession) (t t' : ConnectorSession) :
    Prop where
  runs : run ConnectorSession.step t (connectorSteps c i) = .ok t'
  refines : Refines c' t'
  created : t'.created = t.created ++ made c i
  paid : Along ConnectorSession.step ConnectorSession.Paid t (connectorSteps c i)

namespace Refines

/-- A step that leaves the connector alone. -/
theorem still (href : Refines c' t) (hsteps : connectorSteps c i = []) (hmade : made c i = []) :
    ∃ t', Matched c i c' t t' := by
  refine ⟨t, ?_, href, ?_, ?_⟩
  · rw [hsteps]
    rfl
  · rw [hmade, List.append_nil]
  · rw [hsteps]
    exact along_nil

/-- A step with one step of the connector. -/
theorem once {t' : ConnectorSession} (h : Refines c t) (href : Refines c' t')
    (hsteps : connectorSteps c i = [j]) (hpaid : ConnectorSession.Paid t j)
    (ht' : t.live j = .ok t') (hcreated : t'.created = t.created ++ made c i) :
    ∃ t', Matched c i c' t t' := by
  refine ⟨t', ?_, href, hcreated, ?_⟩
  · rw [hsteps]
    exact run_cons_eq_ok.mpr ⟨t', (if_pos h.alive).trans ht', rfl⟩
  · rw [hsteps]
    exact along_cons.mpr ⟨hpaid, fun _ _ ↦ along_nil⟩

theorem call {k : ClientCall} (h : Refines c t) (hnew : ∀ fd ∈ made c (.call k), fd ∉ t.created)
    (hc' : c.call k = .ok c') : ∃ t', Matched c (.call k) c' t t' := by
  cases k with
  | connect a =>
    have hset : Refines { c with client := { c.client with connect := true } } t :=
      h.congr rfl rfl rfl rfl rfl rfl rfl rfl rfl
    obtain ⟨t', ht', href, hcreated⟩ := (hset.setConnect true).startInLoop hnew hc'
    exact h.once href rfl trivial ht' hcreated
  | stop =>
    have hset : Refines { c with client := { c.client with connect := false } } t :=
      h.congr rfl rfl rfl rfl rfl rfl rfl rfl rfl
    obtain ⟨href, hcreated⟩ := hset.stop
    exact h.once (Except.ok.inj hc' ▸ href) rfl trivial rfl
      (hcreated.trans (List.append_nil _).symm)
  | disconnect =>
    exact still (Except.ok.inj hc' ▸ h.congr rfl rfl rfl rfl rfl rfl rfl rfl rfl) rfl rfl
  | enableRetry =>
    exact still (Except.ok.inj hc' ▸ h.congr rfl rfl rfl rfl rfl rfl rfl rfl rfl) rfl rfl
  | forceClose id =>
    refine still ?_ rfl rfl
    obtain rfl := Except.ok.inj hc'
    rw [ClientSession.forceClose]
    split
    · refine h.congr rfl rfl rfl rfl rfl ?_ rfl rfl rfl
      change (c.pendingFunctors ++ [ClientFunctor.forceClose id]).filterMap _ = _
      rw [List.filterMap_append]
      exact List.append_nil _
    · exact h

/-- The timers that have expired are taken out of the set one by one. -/
theorem run_expires (halive : t.destroyed = false) {batch : List ℕ} (hnodup : batch.Nodup)
    (hsub : batch ⊆ t.timers) : run ConnectorSession.step t (batch.map .expires) =
      .ok { t with timers := t.timers.diff batch, due := t.due ++ batch } := by
  induction batch generalizing t with
  | nil =>
    rw [List.append_nil]
    rfl
  | cons timer batch ih =>
    obtain ⟨hnot, hnodup⟩ := List.nodup_cons.mp hnodup
    obtain ⟨hmem, hsub⟩ := List.cons_subset.mp hsub
    have hexpires : ConnectorSession.step t (.expires timer) =
        .ok { t with timers := t.timers.erase timer, due := t.due ++ [timer] } :=
      (if_pos halive).trans (if_pos hmem)
    have hleft : batch ⊆ t.timers.erase timer := by
      intro j hj
      refine (List.mem_erase_of_ne ?_).mpr (hsub hj)
      exact fun heq ↦ hnot (heq ▸ hj)
    refine run_cons_eq_ok.mpr ⟨_, hexpires, ?_⟩
    rw [List.diff_cons, List.append_cons t.due timer batch]
    exact ih (t := { t with timers := t.timers.erase timer, due := t.due ++ [timer] }) halive
      hnodup hleft

theorem expires (h : Refines c t) {batch : List ℕ} (hdue : c.due = []) (hnodup : batch.Nodup)
    (hsub : batch ⊆ c.timers) :
    ∃ t', Matched c (.expires batch)
      { c with timers := c.timers.diff batch, due := batch } t t' := by
  have hrun := run_expires h.alive hnodup (h.timers ▸ hsub)
  refine ⟨_, hrun, ⟨h.connector, h.poller, ?_, ?_, h.nextTimer, h.pending, h.alive, h.closed,
    h.handed, h.paid⟩, (List.append_nil _).symm, ?_⟩
  · exact congrArg (List.diff · batch) h.timers
  · change t.due ++ batch = batch
    rw [h.due, hdue, List.nil_append]
  · refine (along_of_forall (R := fun j ↦ ∃ timer, .expires timer = j) fun j hj ↦ ?_).guarantee
      (I := fun _ ↦ True) (fun _ _ _ _ _ _ ↦ trivial) ?_ trivial
    · obtain ⟨timer, -, heq⟩ := List.mem_map.mp hj
      exact ⟨timer, heq⟩
    · rintro s j - ⟨timer, rfl⟩
      trivial

/-- The callback of the next one runs. -/
theorem fires (h : Refines c t) {timer : ℕ} {due : List ℕ} (hdue : c.due = timer :: due)
    (hnew : ∀ fd ∈ made c (.fires a), fd ∉ t.created)
    (hc' : ClientSession.startInLoop { c with due := due } a = .ok c') :
    ∃ t', Matched c (.fires a) c' t t' := by
  have hfired : Refines { c with due := due }
      { t with due := t.due.erase timer, fired := t.fired ++ [timer] } := by
    refine ⟨h.connector, h.poller, h.timers, ?_, h.nextTimer, h.pending, h.alive, h.closed,
      h.handed, h.paid⟩
    change t.due.erase timer = due
    rw [h.due, hdue, List.erase_cons_head]
  obtain ⟨t', ht', href, hcreated⟩ := hfired.startInLoop hnew hc'
  have hmem : timer ∈ t.due := by
    rw [h.due, hdue]
    exact List.mem_cons_self
  refine h.once (j := .fires timer a) href ?_ trivial ((if_pos hmem).trans ht') hcreated
  rw [connectorSteps, hdue]

/-- The connection has closed, and the connector is restarted if the client wants it. -/
theorem removeConnection {id : ℕ} (h : Refines c t) (hdown : c.callback = some (.down id))
    (hnew : ∀ fd ∈ made c (.callbackReturns a), fd ∉ t.created)
    (hc' : ClientSession.removeConnection { c with callback := none } id a = .ok c') :
    ∃ t', Matched c (.callbackReturns a) c' t t' := by
  obtain ⟨⟨⟩, hconn, hc'⟩ := bind_eq_ok.mp hc'
  rw [check_eq_ok] at hconn
  have hreturned : Refines { c with callback := none } t := h.congr rfl rfl rfl rfl rfl rfl rfl rfl rfl
  have href := hreturned.resetConnection id
  have hsteps : connectorSteps c (.callbackReturns a) =
      if c.client.retry ∧ c.client.connect then [.restart a] else [] := by
    rw [connectorSteps, hdown]
  have hmade : made c (.callbackReturns a) =
      if c.client.retry ∧ c.client.connect then [a.sockfd] else [] := by
    rw [made, hdown]
  by_cases hretry : c.client.retry ∧ c.client.connect
  · rw [if_pos hretry] at hc' hsteps hmade
    rw [hmade] at hnew
    -- the connection that has closed pays for the restart
    have hpaid : t.restarts + 1 ≤ t.handedOver.length := by
      have hpaid := h.paid
      rw [show c.client.connection = some id from hconn] at hpaid
      exact hpaid
    set restarted : ConnectorSession := { t with
      restarts := t.restarts + 1
      connector := { t.connector with
        state := .kDisconnected, retryDelayMs := kInitRetryDelayMs, connect := true } }
    have hrestarted : Refines { ClientSession.resetConnection { c with callback := none } id with
        connector := { c.connector with
          state := .kDisconnected, retryDelayMs := kInitRetryDelayMs, connect := true } }
        restarted :=
      ⟨congrArg (fun k ↦ { k with
          state := .kDisconnected, retryDelayMs := kInitRetryDelayMs, connect := true })
          h.connector,
        h.poller, h.timers, h.due, h.nextTimer, href.pending, h.alive, h.closed, h.handed, hpaid⟩
    obtain ⟨t', ht', href', hcreated⟩ := hrestarted.startInLoop hnew hc'
    refine h.once href' hsteps (show t.restarts < t.handedOver.length from hpaid) ht' ?_
    rw [hmade]
    exact hcreated
  · rw [if_neg hretry] at hc' hsteps hmade
    exact still (Except.ok.inj hc' ▸ href) hsteps hmade

/-- A functor of the client runs, which may be one of its connector. -/
theorem runFunctor {f : ClientFunctor} {fs : List ClientFunctor} {phase : Phase}
    (h : Refines c t) (hfs : c.pendingFunctors = f :: fs) :
    ∃ t', Matched c .pending
      (ClientSession.runFunctor { c with phase := phase, pendingFunctors := fs } f) t t' := by
  have hpending := h.pending
  rw [hfs] at hpending
  have hpopped (hf : f.toConnector = none) :
      Refines { c with phase := phase, pendingFunctors := fs } t := by
    rw [List.filterMap_cons_none hf] at hpending
    exact ⟨h.connector, h.poller, h.timers, h.due, h.nextTimer, hpending, h.alive, h.closed,
      h.handed, h.paid⟩
  cases f with
  | resetChannel =>
    replace hpending : t.pendingFunctors =
        .resetChannel :: fs.filterMap ClientFunctor.toConnector := hpending
    set reset := ConnectorSession.resetChannel
      { t with pendingFunctors := fs.filterMap ClientFunctor.toConnector }
    have ht' : t.live (.pending ⟨0, none⟩) = .ok reset := by
      rw [ConnectorSession.live, hpending]
      rfl
    have href : Refines (ClientSession.resetChannel
        { c with phase := phase, pendingFunctors := fs }) reset :=
      ⟨congrArg (fun k ↦ { k with channel := none }) h.connector, h.poller, h.timers, h.due,
        h.nextTimer, rfl, h.alive, h.closed, h.handed, h.paid⟩
    refine h.once (j := .pending ⟨0, none⟩) href ?_ trivial ht' (List.append_nil _).symm
    rw [connectorSteps, hfs]
  | forceClose id =>
    refine still ?_ (by rw [connectorSteps, hfs]) rfl
    rw [ClientSession.runFunctor]
    split
    · exact (hpopped rfl).congr rfl rfl rfl rfl rfl rfl rfl rfl rfl
    · exact hpopped rfl
  | connectDestroyed id => exact still (hpopped rfl) (by rw [connectorSteps, hfs]) rfl

/-- The step lemma. -/
theorem step (h : Refines c t) (htidy : Tidy c) (hnew : ∀ fd ∈ made c i, fd ∉ t.created)
    (hc' : TcpClient.step c i = .ok c') : ∃ t', Matched c i c' t t' := by
  cases i with
  | call k => exact h.call hnew hc'
  | handleEvent revents err isSelfConnect =>
    obtain ⟨⟨-, channel, hchannel, hreg⟩, hc'⟩ := ite_eq_ok.mp hc'
    have hnone : c.connector.state = .kConnecting → c.client.connection = none := by
      intro hstate
      apply htidy.connection_eq_none
      rw [hstate]
      decide
    obtain ⟨t', ht', href, hcreated⟩ := h.handleEvent hnone hc'
    -- the poller has the channel of the attempt
    have hmem : channel.fd ∈ t.poller := by
      rw [h.poller, htidy.attempting.attempts_eq, Option.mem_def.mp hchannel, Option.filter_some,
        if_pos hreg]
      exact List.mem_cons_self
    have hhas : ∃ k ∈ t.connector.channel, k.fd = channel.fd := by
      rw [h.connector]
      exact ⟨channel, hchannel, rfl⟩
    refine h.once (j := .handleEvent channel.fd revents err isSelfConnect) href ?_ trivial
      ((if_pos hmem).trans ((if_pos hhas).trans ht')) (hcreated.trans (List.append_nil _).symm)
    rw [connectorSteps, Option.mem_def.mp hchannel]
  | expires batch =>
    obtain ⟨⟨⟨-, -, hdue⟩, hnodup, hsub⟩, hc'⟩ := ite_eq_ok.mp hc'
    exact Except.ok.inj hc' ▸ h.expires hdue hnodup hsub
  | fires a =>
    rw [TcpClient.step] at hc'
    split at hc'
    · rename_i hdue
      exact h.fires hdue hnew hc'
    · exact absurd hc' error_ne_ok
  | callbackReturns a =>
    rw [TcpClient.step] at hc'
    cases hcallback : c.callback with
    | none =>
      rw [hcallback] at hc'
      exact absurd hc' error_ne_ok
    | some callback =>
      rw [hcallback] at hc'
      cases callback with
      | up id =>
        refine still ?_ (by rw [connectorSteps, hcallback]) (by rw [made, hcallback])
        exact Except.ok.inj hc' ▸ h.congr rfl rfl rfl rfl rfl rfl rfl rfl rfl
      | down id => exact h.removeConnection hcallback hnew hc'
  | pending =>
    rw [TcpClient.step] at hc'
    split at hc'
    · rename_i hfs
      exact Except.ok.inj hc' ▸ h.runFunctor hfs
    all_goals exact absurd hc' error_ne_ok
  | closes id | dispatched | poll =>
    obtain ⟨-, hc'⟩ := ite_eq_ok.mp hc'
    exact still (Except.ok.inj hc' ▸ h.congr rfl rfl rfl rfl rfl rfl rfl rfl rfl) rfl rfl

end Refines

/-! ## Runs -/

/-- The run lemma: no socket is made twice, so each step is matched. -/
theorem refines_run {steps : List Step} (hfresh : (trace step made .start steps).Nodup)
    (hrun : run step .start steps = .ok c) :
    ∃ t, run ConnectorSession.step .new (trace step connectorSteps .start steps) = .ok t ∧
      Along ConnectorSession.step ConnectorSession.Paid .new
        (trace step connectorSteps .start steps) ∧
      Refines c t ∧ t.created = trace step made .start steps := by
  set all := trace step made .start steps with hall
  have hstep : ∀ (i : Step) (is : List Step) (c : ClientSession) (t : ConnectorSession)
      (c' : ClientSession),
      Tidy c ∧ Refines c t ∧ t.created ++ trace step made c (i :: is) = all →
      step c i = .ok c' →
      ∃ t', run ConnectorSession.step t (connectorSteps c i) = .ok t' ∧
        Along ConnectorSession.step ConnectorSession.Paid t (connectorSteps c i) ∧
        Tidy c' ∧ Refines c' t' ∧ t'.created ++ trace step made c' is = all := by
    rintro i is c t c' ⟨htidy, href, hcreated⟩ hc'
    rw [trace_cons_ok hc', ← List.append_assoc] at hcreated
    -- what the step makes is not among what was made
    have hnew : ∀ fd ∈ made c i, fd ∉ t.created := by
      intro fd hmade hmem
      rw [← hcreated] at hfresh
      exact List.disjoint_of_nodup_append (List.Nodup.of_append_left hfresh) hmem hmade
    obtain ⟨t', hmatched⟩ := href.step htidy hnew hc'
    refine ⟨t', hmatched.runs, hmatched.paid, (htidy.step (careful_of_ok hc')).of_ok hc', hmatched.refines, ?_⟩
    rw [hmatched.created]
    exact hcreated
  obtain ⟨t, ht, hpaid, -, href, hcreated⟩ := run_matched
    (R := fun is c t ↦ Tidy c ∧ Refines c t ∧ t.created ++ trace step made c is = all) hstep
    ⟨tidy_start, refines_start, rfl⟩ hrun
  rw [trace_nil, List.append_nil] at hcreated
  exact ⟨t, ht, hpaid, href, hcreated⟩

/-- **The connector of a client is a connector.** What a run of the client does with it is a run of
a connector by itself, and leaves it with the data, the sockets, the timers and the functors that
the client's has. -/
theorem refines_connector {steps : List Step} (hfresh : (trace step made .start steps).Nodup)
    (hrun : run step .start steps = .ok c) :
    ∃ t, run ConnectorSession.step .new (trace step connectorSteps .start steps) = .ok t ∧
      Refines c t := by
  obtain ⟨t, ht, -, href, -⟩ := refines_run hfresh hrun
  exact ⟨t, ht, href⟩

/-- The first attempt is refused, and the second is connected and then closed by its user. -/
theorem refines_connector_of_retry :
    ∃ c, run step .start [.call (.connect ⟨3, some .ECONNREFUSED⟩), .expires [0],
        .fires ⟨4, none⟩, .handleEvent EPOLLOUT 0 false, .call (.forceClose 0),
        .callbackReturns ⟨0, none⟩] = .ok c ∧
      ∃ t, run ConnectorSession.step .new [.start .loop ⟨3, some .ECONNREFUSED⟩, .expires 0,
          .fires 0 ⟨4, none⟩, .handleEvent 4 EPOLLOUT 0 false] = .ok t ∧ Refines c t :=
  ⟨_, rfl, refines_connector (by decide) (rfl : run step .start [
    .call (.connect ⟨3, some .ECONNREFUSED⟩), .expires [0], .fires ⟨4, none⟩,
    .handleEvent EPOLLOUT 0 false, .call (.forceClose 0), .callbackReturns ⟨0, none⟩] = .ok _)⟩

/-- **The sockets of a client.** Each socket that was made is being connected, was closed by the
connector, or was handed over, and only one of these, once; and there have been as many connections
as sockets were handed over. The connector is restarted after a hand-over only, once for each. -/
theorem sockets_conserved {steps : List Step} (hfresh : (trace step made .start steps).Nodup)
    (hrun : run step .start steps = .ok c) :
    ∃ t, run ConnectorSession.step .new (trace step connectorSteps .start steps) = .ok t ∧
      Along ConnectorSession.step ConnectorSession.Paid .new
        (trace step connectorSteps .start steps) ∧
      t.handedOver.length = c.opened ∧
      ∀ fd ∈ trace step made .start steps,
        c.attempts.count fd + (c.closed.count fd + t.handedOver.count fd) = 1 := by
  obtain ⟨t, ht, hpaid, href, hcreated⟩ := refines_run hfresh hrun
  have hsound : ConnectorSession.Sound t := hpaid.run_inv
    (fun s i s' h hi hs' ↦ (h.step hi).of_ok hs') ConnectorSession.sound_new ht
  refine ⟨t, ht, hpaid, href.handed, fun fd hmem ↦ ?_⟩
  have hcount := hsound.ledger fd
  rw [href.poller, href.closed, hcreated, List.count_eq_one_of_mem hfresh hmem] at hcount
  exact hcount

/-- A refused attempt, a connection that is closed, and the attempt that follows it. -/
theorem sockets_conserved_of_reconnect :
    ∃ (c : ClientSession) (t : ConnectorSession),
      run step .start [.call .enableRetry, .call (.connect ⟨3, some .ECONNREFUSED⟩),
        .expires [0], .fires ⟨4, none⟩, .handleEvent EPOLLOUT 0 false, .call (.forceClose 0),
        .callbackReturns ⟨0, none⟩, .dispatched, .pending, .pending,
        .callbackReturns ⟨5, none⟩] = .ok c ∧
      t.handedOver.length = c.opened ∧
      c.attempts.count 4 + (c.closed.count 4 + t.handedOver.count 4) = 1 := by
  obtain ⟨c, hc⟩ : ∃ c, run step .start [.call .enableRetry,
    .call (.connect ⟨3, some .ECONNREFUSED⟩), .expires [0], .fires ⟨4, none⟩,
    .handleEvent EPOLLOUT 0 false, .call (.forceClose 0), .callbackReturns ⟨0, none⟩, .dispatched,
    .pending, .pending, .callbackReturns ⟨5, none⟩] = .ok c := ⟨_, rfl⟩
  obtain ⟨t, -, -, hlength, hconserved⟩ := sockets_conserved (by decide) hc
  exact ⟨c, t, hc, hlength, hconserved 4 (by decide)⟩

end TcpClient

end Twnl
