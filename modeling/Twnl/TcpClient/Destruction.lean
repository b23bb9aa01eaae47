import Twnl.TcpClient.Attempts

/-!
# The destruction of a client

The destructor of a client without a connection stops the connector, that of a client with one makes
the connection close without the client; then the connector is destroyed. `cancelTimer` follows the
pointer it gets, so that here a pointer that was not set, or whose timer is not pending any more, is
a fault. So is one whose timer has expired and is still to be called, in the callback of another
timer: it is released, and `handleRead` comes to it next. A connector that is stopped when it is
destroyed passes its pointer twice, and neither `stop` nor the destructor takes the channel of an
attempt from the poller.

So it is only a client with a connection, a connector without a channel, and a timer that is still
pending, with none that has expired, that leaves nothing behind (`clean_iff`). The runs are those in
which no assert has failed, and these are the runs of careful steps.
-/

namespace Twnl

namespace TcpClient

open Connector Machine

/-- What there is after the destructors of the client and of its connector. -/
structure Remains where
  session : ClientSession
  /-- The connections that will call `removeConnection` of the client. -/
  callers : List ℕ
  deriving DecidableEq, Repr

namespace ClientSession

/-- `TimerQueue::cancelTimer`, which follows the pointer and releases the timer. -/
def followTimer (s : ClientSession) : Except Fault ClientSession :=
  match s.connector.timer with
  | none => .error .indeterminate
  | some id =>
    if id ∈ s.timers then .ok { s with timers := s.timers.filter (· ≠ id) }
    else .error .useAfterFree

/-- The connections that are still to call their close callback. -/
def callers (s : ClientSession) : List ℕ :=
  match s.callback with
  | some (.down id) => id :: s.established
  | some (.up _) | none => s.established

/-- `Connector::~Connector`. -/
def destroyConnector (s : ClientSession) : Except Fault ClientSession := do
  let canceled ← s.followTimer
  check (canceled.connector.channel = none) .connectorDestructor
  .ok canceled

/-- `TcpClient::~TcpClient`. -/
def destroy (s : ClientSession) : Except Fault Remains :=
  match s.client.connection with
  | some id => do
    let destroyed ← s.destroyConnector
    .ok ⟨destroyed, s.callers.filter (· ≠ id)⟩
  | none => do
    let stopped ← (s.setConnect false).followTimer
    let destroyed ← stopped.destroyConnector
    .ok ⟨destroyed, s.callers⟩

end ClientSession

/-- Nothing refers to the client or to its connector: not the poller, no timer, no functor, and no
connection that closes. -/
def Gone (r : Remains) : Prop :=
  ¬r.session.Registered ∧ r.session.timers = [] ∧ r.session.due = [] ∧
    .resetChannel ∉ r.session.pendingFunctors ∧ r.callers = []

instance : DecidablePred Gone := fun _ ↦ inferInstanceAs (Decidable (_ ∧ _))

/-- The destructor returns and leaves nothing behind. -/
def Clean (s : ClientSession) : Prop := Outcome s.destroy Gone (fun _ ↦ False)

instance : DecidablePred Clean := fun _ ↦ inferInstanceAs (Decidable (Outcome _ _ _))

/-- There is a connection, no channel, and one timer, which is the connector's and has not
expired. -/
def Disposable (s : ClientSession) : Prop :=
  s.client.connection ≠ none ∧ s.connector.channel = none ∧ s.due = [] ∧
    ∃ id ∈ s.connector.timer, id ∈ s.timers ∧ ∀ timer ∈ s.timers, timer = id

instance : DecidablePred Disposable := fun s ↦
  inferInstanceAs (Decidable (_ ∧ _ ∧ _ ∧ ∃ id ∈ s.connector.timer, _))

open ClientSession

variable {s s' : ClientSession}

/-! ## The destructors -/

theorem followTimer_ok (hs' : s.followTimer = .ok s') :
    ∃ id, s.connector.timer = some id ∧ id ∈ s.timers ∧
      s' = { s with timers := s.timers.filter (· ≠ id) } := by
  rw [followTimer] at hs'
  split at hs'
  · exact absurd hs' nofun
  · rename_i id hid
    obtain ⟨hmem, hs'⟩ := ite_eq_ok.mp hs'
    exact ⟨id, hid, hmem, (Except.ok.inj hs').symm⟩

theorem destroyConnector_ok (hs' : s.destroyConnector = .ok s') :
    s.connector.channel = none ∧ ∃ id, s.connector.timer = some id ∧ id ∈ s.timers ∧
      s' = { s with timers := s.timers.filter (· ≠ id) } := by
  obtain ⟨r, hr, hs'⟩ := bind_eq_ok.mp hs'
  obtain ⟨⟨⟩, hchannel, hs'⟩ := bind_eq_ok.mp hs'
  obtain rfl := Except.ok.inj hs'
  obtain ⟨id, hid, hmem, rfl⟩ := followTimer_ok hr
  exact ⟨check_eq_ok.mp hchannel, id, hid, hmem, rfl⟩

/-- A connector that was stopped passes the same pointer again. -/
theorem stop_destroyConnector (hs : s.followTimer = .ok s') :
    ∃ f, s'.destroyConnector = .error f := by
  obtain ⟨id, hid, -, rfl⟩ := followTimer_ok hs
  have hnot : id ∉ s.timers.filter (· ≠ id) := by
    intro hmem
    exact of_decide_eq_true (List.mem_filter.mp hmem).2 rfl
  refine ⟨.useAfterFree, ?_⟩
  rw [destroyConnector, followTimer]
  change (match s.connector.timer with | none => _ | some id => _) >>= _ = _
  rw [hid]
  dsimp only
  rw [if_neg hnot]
  rfl

/-- Every connection that is still to close is the client's. -/
theorem Tidy.callers (h : Tidy s) {id : ℕ} (hid : id ∈ s.callers) :
    s.client.connection = some id := by
  rw [ClientSession.callers] at hid
  split at hid
  · rename_i j hdown
    obtain ⟨hnone, hconn, -⟩ := h.holding.down j hdown
    rw [hnone] at hid
    rw [hconn, List.mem_singleton.mp hid]
  · exact h.mem_established hid
  · exact h.mem_established hid

/-- Without a channel no reset of it is queued. -/
theorem Tidy.reset_not_mem (h : Tidy s) (hchannel : s.connector.channel = none) :
    .resetChannel ∉ s.pendingFunctors := by
  intro hmem
  obtain ⟨c, hc, -⟩ := h.attempting.reset.mp hmem
  rw [hchannel] at hc
  exact absurd hc nofun

/-- A client without a connection passes its pointer twice. -/
theorem not_clean_of_none (hconn : s.client.connection = none) : ¬Clean s := by
  intro hclean
  rw [Clean, destroy, hconn] at hclean
  cases hstop : (s.setConnect false).followTimer with
  | error f =>
    simp only [hstop, bind_error] at hclean
    exact hclean
  | ok stopped =>
    -- the second call passes what the first has released
    obtain ⟨f, hf⟩ := stop_destroyConnector hstop
    simp only [hstop, bind_ok, hf, bind_error] at hclean
    exact hclean

theorem Tidy.clean (h : Tidy s) : Clean s ↔ Disposable s := by
  cases hconn : s.client.connection with
  | none => exact iff_of_false (not_clean_of_none hconn) fun hdisposable ↦ hdisposable.1 hconn
  | some id =>
    -- whoever is in a callback is in that of the connection
    have hcallers : s.callers.filter (· ≠ id) = [] := by
      refine List.filter_eq_nil_iff.mpr fun j hj ↦ ?_
      have hj' := Option.some.inj ((h.callers hj).symm.trans hconn)
      simpa using hj'
    rw [Clean, destroy, hconn]
    constructor
    · intro hclean
      cases hdestroyed : s.destroyConnector with
      | error f =>
        simp only [hdestroyed, bind_error] at hclean
        exact hclean.elim
      | ok r =>
        simp only [hdestroyed, bind_ok] at hclean
        obtain ⟨hchannel, timer, htimer, hmem, rfl⟩ := destroyConnector_ok hdestroyed
        refine ⟨by rw [hconn]; exact Option.some_ne_none id, hchannel, hclean.2.2.1, timer,
          htimer, hmem, fun j hj ↦ ?_⟩
        have hnone := List.filter_eq_nil_iff.mp hclean.2.1 j hj
        simpa using hnone
    · rintro ⟨-, hchannel, hdue, timer, htimer, hmem, hall⟩
      -- the timer that waits is the one that is canceled
      have htimers : s.timers.filter (· ≠ timer) = [] := by
        refine List.filter_eq_nil_iff.mpr fun j hj ↦ ?_
        simpa using hall j hj
      have hfollow : s.followTimer = .ok { s with timers := s.timers.filter (· ≠ timer) } := by
        rw [followTimer, Option.mem_def.mp htimer]
        exact if_pos hmem
      simp only [destroyConnector, hfollow, bind_ok, check_pos hchannel, outcome_ok]
      refine ⟨?_, htimers, hdue, h.reset_not_mem hchannel, hcallers⟩
      rintro ⟨c, hc, -⟩
      exact absurd (hc.symm.trans hchannel) (Option.some_ne_none c)

/-- A step that arrives is careful. -/
theorem careful_of_ok {i : Step} (hs' : step s i = .ok s') : Careful s i := by
  refine careful_of_step (P := fun _ ↦ True) ?_
  rw [hs']
  exact trivial

theorem tidy_of_run {steps : List Step} (hrun : run step .start steps = .ok s) : Tidy s :=
  run_inv (fun _ _ _ h hs' ↦ (h.step (careful_of_ok hs')).of_ok hs') tidy_start hrun

/-- **The destruction of a client**, after a run in which no assert has failed: all its steps were
careful. -/
theorem clean_iff (steps : List Step) (hrun : run step .start steps = .ok s) :
    Along step Careful .start steps ∧ (Clean s ↔ Disposable s) := by
  refine ⟨?_, (tidy_of_run hrun).clean⟩
  exact Along.guarantee (I := fun _ ↦ True) (fun _ _ _ _ _ _ ↦ trivial)
    (fun _ _ _ ⟨_, hs'⟩ ↦ careful_of_ok hs') (along_ok hrun) trivial

/-- `connect` is called while a timer waits, and its connection is up when the client is
destroyed. -/
theorem clean_of_connect_twice :
    ∃ s, run step .start [.call (.connect ⟨3, some .ECONNREFUSED⟩), .call (.connect ⟨4, none⟩),
        .handleEvent EPOLLOUT 0 false, .callbackReturns ⟨0, none⟩, .dispatched, .pending] = .ok s ∧
      Disposable s ∧ (Clean s ↔ Disposable s) :=
  ⟨_, rfl, by decide, (clean_iff [.call (.connect ⟨3, some .ECONNREFUSED⟩),
    .call (.connect ⟨4, none⟩), .handleEvent EPOLLOUT 0 false, .callbackReturns ⟨0, none⟩,
    .dispatched, .pending] rfl).2⟩

/-- A client that was never started cancels a timer that was never set. One that waits for a retry
cancels its timer twice. When the channel of an attempt is still there, with a timer that waits, the
assert fails. One that is destroyed in the callback of another timer, with its own timer expired and
a connection that is up, releases the timer that is called next. -/
theorem not_clean :
    ¬Clean .start ∧
      (∃ s, run step .start [.call (.connect ⟨3, some .ECONNREFUSED⟩)] = .ok s ∧
        s.destroy = .error .useAfterFree ∧ ¬Clean s) ∧
      (∃ s, run step .start [.call (.connect ⟨3, some .ECONNREFUSED⟩), .call (.connect ⟨4, none⟩),
          .handleEvent EPOLLOUT 0 false] = .ok s ∧
        s.destroy = .error (.assertion .connectorDestructor) ∧ ¬Clean s) ∧
      ∃ s, run step .start [.call (.connect ⟨3, some .ECONNREFUSED⟩), .call (.connect ⟨4, none⟩),
          .handleEvent EPOLLOUT 0 false, .callbackReturns ⟨0, none⟩, .dispatched, .pending, .poll,
          .expires [0]] = .ok s ∧
        s.destroy = .error .useAfterFree ∧ ¬Clean s :=
  ⟨by decide, ⟨_, rfl, rfl, by decide⟩, ⟨_, rfl, rfl, by decide⟩, _, rfl, rfl, by decide⟩

end TcpClient

end Twnl
