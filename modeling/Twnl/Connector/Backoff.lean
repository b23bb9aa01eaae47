import Mathlib.Data.List.Iterate
import Twnl.Connector.Basic

/-!
# The delays between the attempts of a connector

`retry` waits before another attempt, and each time twice as long as the last time, up to a maximum.
Only `restart` starts again from the shortest delay: a connector that is stopped and started keeps
the one it had.

What a step passes to `runAfter` follows its function of the connector, branch by branch. Since
`restart` was last called, or since the connector was made, the delays are the powers of two times
the shortest, none longer than the longest (`backs_off`).
-/

namespace Twnl

namespace ConnectorSession

open Connector TcpClient Machine

variable {s t u : ConnectorSession} {a : Attempt} {i : Step} {v w : List ℕ}

/-! ## What is passed to `runAfter` -/

/-- The delay that `retry` passes. -/
def retryDelay (s : ConnectorSession) : List ℕ :=
  if s.connector.connect then [s.connector.retryDelayMs] else []

def connectDelay (s : ConnectorSession) (a : Attempt) : List ℕ :=
  match a.errno with
  | none | some .EINPROGRESS | some .EINTR | some .EISCONN => []
  | some .EAGAIN | some .EADDRINUSE | some .EADDRNOTAVAIL | some .ECONNREFUSED
  | some .ENETUNREACH => s.retryDelay
  | some .EACCES | some .EPERM | some .EAFNOSUPPORT | some .EALREADY | some .EBADF
  | some .EFAULT | some .ENOTSOCK => []
  | some .EPIPE | some .ECONNRESET | some (.other _) => []

def startInLoopDelay (s : ConnectorSession) (a : Attempt) : List ℕ :=
  if s.connector.connect then s.connectDelay a else []

def startDelay (s : ConnectorSession) (thread : Thread) (a : Attempt) : List ℕ :=
  match thread with
  | .loop => (s.setConnect true).startInLoopDelay a
  | .other => []

/-- `restart` calls `startInLoop` with the shortest delay. -/
def restartDelay (s : ConnectorSession) (a : Attempt) : List ℕ :=
  startInLoopDelay { s with
    restarts := s.restarts + 1
    connector := { s.connector with
      state := .kDisconnected, retryDelayMs := kInitRetryDelayMs, connect := true } } a

def handleWriteDelay (s : ConnectorSession) (err : ℤ) (isSelfConnect : Bool) : List ℕ :=
  match s.connector.state with
  | .kConnecting =>
    if err ≠ 0 then s.retryDelay
    else if isSelfConnect then s.retryDelay
    else []
  | .kDisconnected => []
  | .kConnected => []

def handleErrorDelay (s : ConnectorSession) : List ℕ := s.retryDelay

def handleEventDelay (s : ConnectorSession) (revents : Mask) (err : ℤ) (isSelfConnect : Bool) :
    List ℕ :=
  if revents &&& EPOLLERR ≠ 0 then
    s.handleErrorDelay ++
      match s.handleError with
      | .ok handled =>
        if revents &&& EPOLLOUT ≠ 0 then handled.handleWriteDelay err isSelfConnect else []
      | .error _ => []
  else if revents &&& EPOLLOUT ≠ 0 then s.handleWriteDelay err isSelfConnect
  else []

def runFunctorDelay (s : ConnectorSession) (a : Attempt) : ConnectorFunctor → List ℕ
  | .startInLoop => s.startInLoopDelay a
  | .resetChannel => []
  | .cancelTimer _ => []

/-- The delays that a step passes to `runAfter`. -/
def delays (s : ConnectorSession) : Step → List ℕ
  | .start thread a => s.startDelay thread a
  | .stop _ => []
  | .restart a => s.restartDelay a
  | .handleEvent _ revents err isSelfConnect => s.handleEventDelay revents err isSelfConnect
  | .expires _ => []
  | .fires _ a => s.startInLoopDelay a
  | .pending a =>
    match s.pendingFunctors with
    | f :: _ => s.runFunctorDelay a f
    | [] => []
  | .destroy _ => []

/-! ## One function -/

/-- `retryDelayMs_` after a delay. -/
def double (delay : ℕ) : ℕ := min (delay * 2) kMaxRetryDelayMs

/-- From `s` to `t`, timers are set that wait for `w`, each twice as long as the one before. -/
structure Waits (s : ConnectorSession) (w : List ℕ) (t : ConnectorSession) : Prop where
  delays : w = List.iterate double s.connector.retryDelayMs w.length
  next : t.connector.retryDelayMs = double^[w.length] s.connector.retryDelayMs
  timers : t.nextTimer = s.nextTimer + w.length

theorem waits_nil (hdelay : t.connector.retryDelayMs = s.connector.retryDelayMs)
    (htimers : t.nextTimer = s.nextTimer) : Waits s [] t := by
  refine ⟨rfl, ?_, ?_⟩
  · rw [hdelay, List.length_nil, Function.iterate_zero_apply]
  · rw [htimers, List.length_nil, Nat.add_zero]

theorem Waits.append (h : Waits s v t) (h' : Waits t w u) : Waits s (v ++ w) u := by
  refine ⟨?_, ?_, ?_⟩
  · rw [List.length_append, List.iterate_add, ← h.delays, ← h.next, ← h'.delays]
  · rw [h'.next, h.next, ← Function.iterate_add_apply, List.length_append, Nat.add_comm]
  · rw [h'.timers, h.timers, List.length_append, Nat.add_assoc]

/-- What comes before or after may change the rest of the connector. -/
theorem Waits.congr {s' : ConnectorSession} (h : Waits s w t)
    (hdelay : s'.connector.retryDelayMs = s.connector.retryDelayMs)
    (htimers : s'.nextTimer = s.nextTimer) : Waits s' w t :=
  (waits_nil (t := s) hdelay.symm htimers.symm).append h

theorem waits_retry (s : ConnectorSession) (sockfd : ℤ) :
    Waits s s.retryDelay (s.retry sockfd) := by
  rw [retry, retryDelay]
  split
  · exact ⟨rfl, rfl, rfl⟩
  · exact waits_nil rfl rfl

theorem waits_connecting (s : ConnectorSession) (sockfd : ℤ) :
    Outcome (s.connecting sockfd) (Waits s []) (fun _ ↦ True) := by
  refine outcome_of ?_ fun _ _ ↦ trivial
  intro t ht
  obtain ⟨⟨⟩, -, ht⟩ := bind_eq_ok.mp ht
  obtain rfl := Except.ok.inj ht
  exact waits_nil rfl rfl

theorem waits_connect (s : ConnectorSession) (a : Attempt) :
    Outcome (s.connect a) (Waits s (s.connectDelay a)) (fun _ ↦ True) := by
  rw [connect]
  split
  · exact trivial
  · have hconnecting := waits_connecting { s with created := s.created ++ [a.sockfd] } a.sockfd
    have hretry := waits_retry { s with created := s.created ++ [a.sockfd] } a.sockfd
    have hclose := waits_nil (s := s) (t := close { s with created := s.created ++ [a.sockfd] }
      a.sockfd) rfl rfl
    rw [connectDelay]
    cases a.errno with
    | none => exact hconnecting.imp fun _ h ↦ h.congr rfl rfl
    | some errno =>
      cases errno
      all_goals first
        | exact hconnecting.imp fun _ h ↦ h.congr rfl rfl
        | exact hretry.congr rfl rfl
        | exact hclose

theorem waits_startInLoop (s : ConnectorSession) (a : Attempt) :
    Outcome (s.startInLoop a) (Waits s (s.startInLoopDelay a)) (fun _ ↦ True) := by
  rw [startInLoop]
  by_cases hstate : s.connector.state = .kDisconnected
  · rw [check_pos hstate, bind_ok, startInLoopDelay]
    split
    · exact waits_connect s a
    · exact waits_nil rfl rfl
  · rw [check_neg hstate]
    exact trivial

theorem waits_start (s : ConnectorSession) (thread : Thread) (a : Attempt) :
    Outcome (s.start thread a) (Waits s (s.startDelay thread a)) (fun _ ↦ True) := by
  cases thread with
  | loop => exact (waits_startInLoop (s.setConnect true) a).imp fun _ h ↦ h.congr rfl rfl
  | other => exact waits_nil rfl rfl

/-- The connector without its channel has the same delay to wait and the same wish to connect. -/
theorem removeAndResetChannel_keeps {fd : ℤ} (h : s.removeAndResetChannel = .ok (t, fd)) :
    t.connector.connect = s.connector.connect ∧
      t.connector.retryDelayMs = s.connector.retryDelayMs ∧ t.nextTimer = s.nextTimer := by
  rw [removeAndResetChannel] at h
  split at h
  · obtain ⟨rfl, -⟩ := Prod.mk.inj (Except.ok.inj h)
    exact ⟨rfl, rfl, rfl⟩
  · exact absurd h error_ne_ok

theorem waits_removed_retry {fd : ℤ} (h : s.removeAndResetChannel = .ok (t, fd)) :
    Waits s s.retryDelay (t.retry fd) := by
  obtain ⟨hconnect, hdelay, htimers⟩ := removeAndResetChannel_keeps h
  have hsame : t.retryDelay = s.retryDelay := by rw [retryDelay, retryDelay, hconnect, hdelay]
  rw [← hsame]
  exact (waits_retry t fd).congr hdelay.symm htimers.symm

theorem waits_handleWrite (s : ConnectorSession) (err : ℤ) (isSelfConnect : Bool) :
    Outcome (s.handleWrite err isSelfConnect) (Waits s (s.handleWriteDelay err isSelfConnect))
      (fun _ ↦ True) := by
  rw [handleWrite, handleWriteDelay]
  cases s.connector.state with
  | kDisconnected => exact waits_nil rfl rfl
  | kConnected => exact trivial
  | kConnecting =>
    refine outcome_of ?_ fun _ _ ↦ trivial
    intro t ht
    obtain ⟨⟨r, fd⟩, hr, ht⟩ := bind_eq_ok.mp ht
    have hretry := waits_removed_retry hr
    obtain ⟨-, hdelay, htimers⟩ := removeAndResetChannel_keeps hr
    dsimp only at ht ⊢
    by_cases herr : err ≠ 0
    · rw [if_pos herr] at ht ⊢
      exact Except.ok.inj ht ▸ hretry
    · rw [if_neg herr] at ht ⊢
      by_cases hself : isSelfConnect = true
      · rw [if_pos hself] at ht ⊢
        exact Except.ok.inj ht ▸ hretry
      · rw [if_neg hself] at ht ⊢
        -- the socket is handed over or closed
        split at ht
        · exact Except.ok.inj ht ▸ waits_nil hdelay htimers
        · exact Except.ok.inj ht ▸ waits_nil hdelay htimers

theorem waits_handleError (s : ConnectorSession) :
    Outcome s.handleError (Waits s s.handleErrorDelay) (fun _ ↦ True) := by
  refine outcome_of ?_ fun _ _ ↦ trivial
  intro t ht
  obtain ⟨⟨⟩, -, ht⟩ := bind_eq_ok.mp ht
  obtain ⟨⟨r, fd⟩, hr, ht⟩ := bind_eq_ok.mp ht
  obtain rfl := Except.ok.inj ht
  exact waits_removed_retry hr

theorem waits_handleEvent (s : ConnectorSession) (revents : Mask) (err : ℤ)
    (isSelfConnect : Bool) :
    Outcome (s.handleEvent revents err isSelfConnect)
      (Waits s (s.handleEventDelay revents err isSelfConnect)) (fun _ ↦ True) := by
  rw [handleEvent, handleEventDelay]
  by_cases herror : revents &&& EPOLLERR ≠ 0
  · rw [if_pos herror, if_pos herror]
    have hwaits := waits_handleError s
    cases hhandled : s.handleError with
    | error e => exact trivial
    | ok handled =>
      rw [hhandled] at hwaits
      rw [bind_ok]
      dsimp only
      split
      · exact (waits_handleWrite handled err isSelfConnect).imp fun _ h ↦ Waits.append hwaits h
      · rw [List.append_nil]
        exact hwaits
  · rw [if_neg herror, if_neg herror, bind_ok]
    split
    · exact waits_handleWrite s err isSelfConnect
    · exact waits_nil rfl rfl

/-! ## Runs -/

def IsRestart : Step → Prop
  | .restart _ => True
  | .start _ _ | .stop _ | .handleEvent _ _ _ _ | .expires _ | .fires _ _ | .pending _
  | .destroy _ => False

instance : DecidablePred IsRestart
  | .restart _ => inferInstanceAs (Decidable True)
  | .start _ _ | .stop _ | .handleEvent _ _ _ _ | .expires _ | .fires _ _ | .pending _
  | .destroy _ => inferInstanceAs (Decidable False)

theorem waits_cancelInLoop (s : ConnectorSession) (timer : Option ℕ) :
    Waits s [] (s.cancelInLoop timer) := by
  cases timer with
  | none => exact waits_nil rfl rfl
  | some id => exact waits_nil rfl rfl

theorem waits_cancelTimer (s : ConnectorSession) (thread : Thread) :
    Waits s [] (s.cancelTimer thread) := by
  cases thread with
  | loop => exact (waits_cancelInLoop { s with
      passed := s.passed ++ s.connector.timer.toList, stopped := true } _).congr rfl rfl
  | other => exact waits_nil rfl rfl

theorem waits_runFunctor {f : ConnectorFunctor} {fs : List ConnectorFunctor} :
    Outcome (runFunctor { s with pendingFunctors := fs } a f) (Waits s (s.runFunctorDelay a f))
      (fun _ ↦ True) := by
  cases f with
  | startInLoop =>
    exact (waits_startInLoop { s with pendingFunctors := fs } a).imp fun _ h ↦ h.congr rfl rfl
  | resetChannel => exact waits_nil rfl rfl
  | cancelTimer timer =>
    exact (waits_cancelInLoop { s with pendingFunctors := fs } timer).congr rfl rfl

/-- The step lemma. -/
theorem waits_step (hrestart : ¬IsRestart i) :
    Outcome (step s i) (Waits s (s.delays i)) (fun _ ↦ True) := by
  rw [step]
  split
  · cases i with
    | restart a => exact absurd trivial hrestart
    | start thread a => exact waits_start s thread a
    | stop thread => exact (waits_cancelTimer (s.setConnect false) thread).congr rfl rfl
    | handleEvent sockfd revents err isSelfConnect =>
      rw [live]
      split
      · split
        · exact waits_handleEvent s revents err isSelfConnect
        · exact trivial
      · exact trivial
    | expires timer =>
      rw [live]
      split
      · exact waits_nil rfl rfl
      · exact trivial
    | fires timer a =>
      rw [live]
      split
      · exact (waits_startInLoop { s with
          due := s.due.erase timer, fired := s.fired ++ [timer] } a).imp fun _ h ↦ h.congr rfl rfl
      · exact trivial
    | pending a =>
      rw [live, delays]
      cases s.pendingFunctors with
      | nil => exact trivial
      | cons f fs => exact waits_runFunctor
    | destroy thread =>
      refine outcome_of ?_ fun _ _ ↦ trivial
      intro t ht
      obtain ⟨⟨⟩, -, ht⟩ := bind_eq_ok.mp ht
      obtain rfl := Except.ok.inj ht
      exact (waits_cancelTimer s thread).append (waits_nil rfl rfl)
  · exact trivial

/-- The run lemma. -/
theorem waits_run {steps : List Step} (hrestart : ∀ i ∈ steps, ¬IsRestart i)
    (hrun : run step s steps = .ok t) : Waits s (trace step delays s steps) t := by
  induction steps generalizing s with
  | nil =>
    rw [run_nil, Except.ok.injEq] at hrun
    exact hrun ▸ waits_nil rfl rfl
  | cons i is ih =>
    obtain ⟨u, hu, hrun⟩ := run_cons_eq_ok.mp hrun
    have hfirst : Waits s (s.delays i) u :=
      (waits_step (hrestart i List.mem_cons_self)).of_ok hu
    rw [trace_cons_ok hu]
    exact hfirst.append (ih (fun j hj ↦ hrestart j (.tail i hj)) hrun)

/-- The delay after so many. -/
theorem iterate_double (n : ℕ) :
    double^[n] kInitRetryDelayMs = min (kInitRetryDelayMs * 2 ^ n) kMaxRetryDelayMs := by
  induction n with
  | zero => rfl
  | succ n ih =>
    rw [Function.iterate_succ_apply', ih, double, pow_succ, ← Nat.mul_assoc]
    omega

/-- The delays from the shortest on. -/
theorem Waits.from_init (h : Waits s w t)
    (hinit : s.connector.retryDelayMs = kInitRetryDelayMs) :
    w = (List.range (t.nextTimer - s.nextTimer)).map
      fun k ↦ min (kInitRetryDelayMs * 2 ^ k) kMaxRetryDelayMs := by
  have hlength : t.nextTimer - s.nextTimer = w.length := by
    rw [h.timers, Nat.add_sub_cancel_left]
  rw [hlength, ← funext iterate_double, List.range_map_iterate, ← hinit]
  exact h.delays

/-- **The delays of a connector.** Since the connector was made, or since a call of `restart`, the
k-th timer from then on waits for the shortest delay times `2 ^ k`, or for the longest. -/
theorem backs_off {before since : List Step} (hbefore : run step new before = .ok s)
    (hsince : run step s since = .ok t)
    (hreset : before = [] ∨ ∃ a, since.head? = some (.restart a))
    (hrestart : ∀ i ∈ since.tail, ¬IsRestart i) :
    trace step delays s since = (List.range (t.nextTimer - s.nextTimer)).map
      fun k ↦ min (kInitRetryDelayMs * 2 ^ k) kMaxRetryDelayMs := by
  cases since with
  | nil =>
    rw [run_nil, Except.ok.injEq] at hsince
    rw [trace_nil, hsince, Nat.sub_self, List.range_zero, List.map_nil]
  | cons i is =>
    obtain ⟨u, hu, hrun⟩ := run_cons_eq_ok.mp hsince
    have hrest : Waits u (trace step delays u is) t := waits_run hrestart hrun
    rw [trace_cons_ok hu]
    by_cases hi : IsRestart i
    · cases i with
      | restart a =>
        -- the call itself may wait, and does so for the shortest delay
        have hcall := hu
        rw [step] at hcall
        split at hcall
        · have hfirst := (waits_startInLoop _ a).of_ok hcall
          exact (hfirst.append hrest).from_init rfl
        · exact absurd hcall error_ne_ok
      | _ => exact absurd hi not_false
    · -- nothing was called before, so this connector is new
      obtain rfl : before = [] := by
        refine hreset.resolve_right ?_
        rintro ⟨a, ha⟩
        exact hi (Option.some.inj ha ▸ trivial)
      obtain rfl : new = s := Except.ok.inj hbefore
      exact (((waits_step hi).of_ok hu).append hrest).from_init rfl

/-- A connector that is stopped and started waits longer than before; one that is restarted does
not. -/
theorem backs_off_of_restart :
    ∃ s t, run step new [.start .loop ⟨3, some .ECONNREFUSED⟩, .stop .loop,
        .start .loop ⟨4, some .ENETUNREACH⟩] = .ok s ∧
      run step s [.restart ⟨5, some .ECONNREFUSED⟩, .expires 2, .fires 2 ⟨6, some .EAGAIN⟩] =
        .ok t ∧
      trace step delays new [.start .loop ⟨3, some .ECONNREFUSED⟩, .stop .loop,
        .start .loop ⟨4, some .ENETUNREACH⟩] = [50, 100] ∧
      trace step delays s [.restart ⟨5, some .ECONNREFUSED⟩, .expires 2,
        .fires 2 ⟨6, some .EAGAIN⟩] = [50, 100] := by
  obtain ⟨s, hs⟩ : ∃ s, run step new [.start .loop ⟨3, some .ECONNREFUSED⟩, .stop .loop,
    .start .loop ⟨4, some .ENETUNREACH⟩] = .ok s := ⟨_, rfl⟩
  obtain ⟨t, ht⟩ : ∃ t, run step s [.restart ⟨5, some .ECONNREFUSED⟩, .expires 2,
    .fires 2 ⟨6, some .EAGAIN⟩] = .ok t := by
    rw [← Except.ok.inj hs]
    exact ⟨_, rfl⟩
  have htimers : s.nextTimer = 2 ∧ t.nextTimer = 4 := by
    obtain rfl := Except.ok.inj hs
    obtain rfl := Except.ok.inj ht
    decide
  have hstopped := backs_off (rfl : run step new [] = .ok new) hs (Or.inl rfl) (by decide)
  have hrestarted := backs_off hs ht (Or.inr ⟨_, rfl⟩) (by decide)
  rw [htimers.1] at hstopped hrestarted
  rw [htimers.2] at hrestarted
  exact ⟨s, t, hs, ht, hstopped, hrestarted⟩

end ConnectorSession

end Twnl
