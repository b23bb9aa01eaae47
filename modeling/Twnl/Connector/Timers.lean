import Mathlib.Data.List.Nodup
import Mathlib.Data.List.Perm.Basic
import Twnl.Connector.Basic

/-!
# The timers that a connector cancels

`stop` and the destructor hand `timer_` to `cancelTimer` whatever it is, and `cancelTimer` follows
it. It is the pointer to a timer that can be canceled in exactly the runs in which each `stop`, and
the destructor, comes while the last `retry` waits for its timer and before any other `stop`
(`cancelsLive_iff`).
-/

namespace Twnl

namespace ConnectorSession

open Connector TcpClient Machine

variable {s s' : ConnectorSession} {a : Attempt} {i : Step} {id : ℕ}

/-- `timer_` was returned by `runAfter`, and its timer neither ran nor was canceled. -/
def TimerLive (s : ConnectorSession) : Prop :=
  ∃ id ∈ s.connector.timer, id < s.nextTimer ∧ id ∉ s.fired ∧ id ∉ s.passed

/-- The timer of the last `retry` is still to run, and no `stop` came after it. -/
def Waiting (s : ConnectorSession) : Prop :=
  s.stopped = false ∧ ∃ id ∈ s.connector.timer, id ∈ s.timers ∨ id ∈ s.due

instance (s : ConnectorSession) : Decidable s.TimerLive :=
  inferInstanceAs (Decidable (∃ id ∈ s.connector.timer, _))

instance (s : ConnectorSession) : Decidable s.Waiting := inferInstanceAs (Decidable (_ ∧ _))

/-- The steps that cancel `timer_`, and what is to hold of them. -/
def OnCancel (p : ConnectorSession → Prop) (s : ConnectorSession) : Step → Prop
  | .stop _ | .destroy _ => s.destroyed = false → p s
  | .start _ _ | .restart _ | .handleEvent _ _ _ _ | .expires _ | .fires _ _ | .pending _ => True

instance (p : ConnectorSession → Prop) [DecidablePred p] (s : ConnectorSession) :
    DecidablePred (OnCancel p s)
  | .stop _ | .destroy _ => inferInstanceAs (Decidable (s.destroyed = false → p s))
  | .start _ _ | .restart _ | .handleEvent _ _ _ _ | .expires _ | .fires _ _ | .pending _ =>
    inferInstanceAs (Decidable True)

/-! ## The invariant -/

structure Timed (s : ConnectorSession) : Prop where
  fresh : ∀ id, id ∈ s.timers ∨ id ∈ s.due ∨ id ∈ s.fired ∨ id ∈ s.passed → id < s.nextTimer
  nodup : (s.timers ++ s.due).Nodup
  queued : ∀ id, .cancelTimer (some id) ∈ s.pendingFunctors → id ∈ s.passed
  current : ∀ id, s.connector.timer = some id → id < s.nextTimer ∧
    (id ∈ s.passed ↔ s.stopped = true) ∧
    (s.stopped = false → (id ∈ s.fired ↔ id ∉ s.timers ∧ id ∉ s.due))

theorem timed_new : Timed new := by
  refine ⟨?_, List.nodup_nil, nofun, nofun⟩
  rintro id (h | h | h | h) <;> exact absurd h List.not_mem_nil

/-- The two ways to say that the timer can be canceled. -/
theorem Timed.timerLive_iff (h : Timed s) : s.TimerLive ↔ s.Waiting := by
  constructor
  · rintro ⟨id, hid, -, hfired, hpassed⟩
    obtain ⟨-, hstopped, hgone⟩ := h.current id hid
    have hopen : s.stopped = false := by
      rw [← Bool.not_eq_true]
      exact mt hstopped.mpr hpassed
    refine ⟨hopen, id, hid, ?_⟩
    have hlisted := mt (hgone hopen).mpr hfired
    rwa [not_and_or, not_not, not_not] at hlisted
  · rintro ⟨hopen, id, hid, hlisted⟩
    obtain ⟨hreturned, hstopped, hgone⟩ := h.current id hid
    refine ⟨id, hid, hreturned, fun hfired ↦ ?_, fun hpassed ↦ ?_⟩
    · obtain ⟨htimers, hdue⟩ := (hgone hopen).mp hfired
      exact hlisted.elim htimers hdue
    · rw [hstopped.mp hpassed] at hopen
      exact absurd hopen nofun

/-! ## What leaves the timers alone -/

/-- The timers and what is recorded of them. -/
def timerPart (s : ConnectorSession) :
    Option ℕ × List ℕ × List ℕ × ℕ × List ℕ × List ℕ × Bool :=
  (s.connector.timer, s.timers, s.due, s.nextTimer, s.fired, s.passed, s.stopped)

theorem Timed.congr (h : Timed s) (htimers : s'.timerPart = s.timerPart)
    (hcancels : ∀ id, .cancelTimer (some id) ∈ s'.pendingFunctors →
      .cancelTimer (some id) ∈ s.pendingFunctors) : Timed s' := by
  obtain ⟨htimer, htimers, hdue, hnext, hfired, hpassed, hstopped⟩ :
      s'.connector.timer = s.connector.timer ∧ s'.timers = s.timers ∧ s'.due = s.due ∧
      s'.nextTimer = s.nextTimer ∧ s'.fired = s.fired ∧ s'.passed = s.passed ∧
      s'.stopped = s.stopped := by
    simpa only [timerPart, Prod.mk.injEq] using htimers
  refine ⟨?_, ?_, fun id hid ↦ ?_, ?_⟩
  · rw [htimers, hdue, hfired, hpassed, hnext]
    exact h.fresh
  · rw [htimers, hdue]
    exact h.nodup
  · rw [hpassed]
    exact h.queued id (hcancels id hid)
  · rw [htimer, hnext, hpassed, hstopped, hfired, htimers, hdue]
    exact h.current

/-- Another timer is set. -/
theorem Timed.runAfter (h : Timed s) : Timed s.runAfter := by
  have hnew (id : ℕ) (hid : id ∈ s.timers ∨ id ∈ s.due ∨ id ∈ s.fired ∨ id ∈ s.passed) :
      id ≠ s.nextTimer := Nat.ne_of_lt (h.fresh id hid)
  refine ⟨fun id hid ↦ ?_, ?_, h.queued, fun id hid ↦ ?_⟩
  · change id < s.nextTimer + 1
    rcases hid with hid | hid
    · rcases List.mem_append.mp hid with hid | hid
      · exact Nat.lt_succ_of_lt (h.fresh id (Or.inl hid))
      · exact List.mem_singleton.mp hid ▸ Nat.lt_succ_self _
    · exact Nat.lt_succ_of_lt (h.fresh id (Or.inr hid))
  · change (s.timers ++ [s.nextTimer] ++ s.due).Nodup
    rw [List.append_assoc, List.singleton_append]
    refine List.perm_middle.nodup_iff.mpr (List.nodup_cons.mpr ⟨fun hmem ↦ ?_, h.nodup⟩)
    rcases List.mem_append.mp hmem with hmem | hmem
    · exact hnew _ (Or.inl hmem) rfl
    · exact hnew _ (Or.inr (Or.inl hmem)) rfl
  · obtain rfl : s.nextTimer = id := Option.some.inj hid
    refine ⟨Nat.lt_succ_self _, iff_of_false (fun hmem ↦ ?_) nofun, fun _ ↦ ?_⟩
    · exact hnew _ (Or.inr (Or.inr (Or.inr hmem))) rfl
    · refine iff_of_false (fun hmem ↦ hnew _ (Or.inr (Or.inr (Or.inl hmem))) rfl) ?_
      exact fun hnot ↦ hnot.1 (List.mem_append_right _ List.mem_cons_self)

theorem Timed.retry (h : Timed s) (sockfd : ℤ) : Timed (s.retry sockfd) := by
  have hclosed : Timed ((s.close sockfd).setState .kDisconnected) := h.congr rfl fun _ ↦ id
  rw [ConnectorSession.retry]
  split
  · exact hclosed.runAfter
  · exact hclosed

theorem Timed.connecting (h : Timed s) (sockfd : ℤ) :
    Outcome (s.connecting sockfd) Timed (fun _ ↦ True) := by
  refine outcome_of (fun s' hs' ↦ ?_) fun _ _ ↦ trivial
  obtain ⟨⟨⟩, -, hs'⟩ := bind_eq_ok.mp hs'
  obtain rfl := Except.ok.inj hs'
  exact h.congr rfl fun _ ↦ id

theorem Timed.connect (h : Timed s) : Outcome (s.connect a) Timed (fun _ ↦ True) := by
  rw [ConnectorSession.connect]
  split
  · exact trivial
  · have hmade : Timed { s with created := s.created ++ [a.sockfd] } := h.congr rfl fun _ ↦ id
    have hconnecting := hmade.connecting a.sockfd
    have hretry := hmade.retry a.sockfd
    have hclose : Timed (close { s with created := s.created ++ [a.sockfd] } a.sockfd) :=
      hmade.congr rfl fun _ ↦ id
    split
    all_goals first | exact hconnecting | exact hretry | exact hclose

theorem Timed.startInLoop (h : Timed s) : Outcome (s.startInLoop a) Timed (fun _ ↦ True) := by
  rw [ConnectorSession.startInLoop]
  by_cases hstate : s.connector.state = .kDisconnected
  · rw [check_pos hstate, bind_ok]
    split
    · exact h.connect
    · exact h
  · rw [check_neg hstate]
    exact trivial

theorem Timed.removeAndResetChannel {fd : ℤ} (h : Timed s)
    (hs' : s.removeAndResetChannel = .ok (s', fd)) : Timed s' := by
  rw [ConnectorSession.removeAndResetChannel] at hs'
  split at hs'
  · rename_i c hc
    obtain ⟨rfl, rfl⟩ := Prod.mk.inj (Except.ok.inj hs')
    refine h.congr rfl fun id hid ↦ ?_
    refine (List.mem_append.mp hid).resolve_right fun hid ↦ ?_
    exact absurd (List.mem_singleton.mp hid) nofun
  · exact absurd hs' nofun

theorem Timed.handleError (h : Timed s) : Outcome s.handleError Timed (fun _ ↦ True) := by
  refine outcome_of (fun s' hs' ↦ ?_) fun _ _ ↦ trivial
  obtain ⟨⟨⟩, -, hs'⟩ := bind_eq_ok.mp hs'
  obtain ⟨⟨r, fd⟩, hr, hs'⟩ := bind_eq_ok.mp hs'
  obtain rfl := Except.ok.inj hs'
  exact (h.removeAndResetChannel hr).retry fd

theorem Timed.handleWrite (h : Timed s) (err : ℤ) (isSelfConnect : Bool) :
    Outcome (s.handleWrite err isSelfConnect) Timed (fun _ ↦ True) := by
  rw [ConnectorSession.handleWrite]
  cases s.connector.state with
  | kDisconnected => exact h
  | kConnected => exact trivial
  | kConnecting =>
    refine outcome_of (fun s' hs' ↦ ?_) fun _ _ ↦ trivial
    obtain ⟨⟨r, fd⟩, hr, hs'⟩ := bind_eq_ok.mp hs'
    have hremoved := h.removeAndResetChannel hr
    dsimp only at hs'
    split at hs'
    · obtain rfl := Except.ok.inj hs'
      exact hremoved.retry fd
    · split at hs'
      · obtain rfl := Except.ok.inj hs'
        exact hremoved.retry fd
      · split at hs'
        · obtain rfl := Except.ok.inj hs'
          exact hremoved.congr rfl fun _ ↦ id
        · obtain rfl := Except.ok.inj hs'
          exact hremoved.congr rfl fun _ ↦ id

theorem Timed.handleEvent (h : Timed s) (revents : Mask) (err : ℤ) (isSelfConnect : Bool) :
    Outcome (s.handleEvent revents err isSelfConnect) Timed (fun _ ↦ True) :=
  handleEvent_outcome h h.handleError fun _ hr ↦ hr.handleWrite err isSelfConnect

/-! ## Timers -/

/-- A timer that was passed to `cancelTimer` is taken out of the set. -/
theorem Timed.cancelInLoop (h : Timed s) {timer : Option ℕ}
    (hpassed : ∀ id ∈ timer, id ∈ s.passed) : Timed (s.cancelInLoop timer) := by
  cases timer with
  | none => exact h
  | some j =>
    have hj : j ∈ s.passed := hpassed j rfl
    refine ⟨fun id hid ↦ h.fresh id (hid.imp_left List.mem_of_mem_erase), ?_, h.queued,
      fun id hid ↦ ?_⟩
    · exact h.nodup.sublist (List.erase_sublist.append_right _)
    · obtain ⟨hreturned, hstopped, hgone⟩ := h.current id hid
      refine ⟨hreturned, hstopped, fun hopen ↦ (hgone hopen).trans ?_⟩
      -- the timer of the last `retry` was not passed
      have hne : id ≠ j := by
        rintro rfl
        exact absurd ((hstopped.mp hj).symm.trans hopen) nofun
      exact and_congr_left' (not_congr (List.mem_erase_of_ne hne).symm)

/-- `timer_` is passed to `cancelTimer`. -/
theorem Timed.cancelTimer (h : Timed s) (thread : Thread) : Timed (s.cancelTimer thread) := by
  have hpassed : Timed { s with
      passed := s.passed ++ s.connector.timer.toList, stopped := true } := by
    refine ⟨fun id hid ↦ ?_, h.nodup, fun id hid ↦ List.mem_append_left _ (h.queued id hid),
      fun id hid ↦ ⟨(h.current id hid).1, iff_of_true ?_ rfl, nofun⟩⟩
    · rcases hid with hid | hid | hid | hid
      · exact h.fresh id (Or.inl hid)
      · exact h.fresh id (Or.inr (Or.inl hid))
      · exact h.fresh id (Or.inr (Or.inr (Or.inl hid)))
      · rcases List.mem_append.mp hid with hid | hid
        · exact h.fresh id (Or.inr (Or.inr (Or.inr hid)))
        · exact (h.current id (Option.mem_toList.mp hid)).1
    · exact List.mem_append_right _ (Option.mem_toList.mpr hid)
  -- what is passed is the pointer of the last `retry`
  have hmem : ∀ id ∈ s.connector.timer, id ∈ s.passed ++ s.connector.timer.toList :=
    fun id hid ↦ List.mem_append_right _ (Option.mem_toList.mpr hid)
  cases thread with
  | loop => exact hpassed.cancelInLoop hmem
  | other =>
    refine ⟨hpassed.fresh, hpassed.nodup, fun id hid ↦ ?_, hpassed.current⟩
    rcases List.mem_append.mp hid with hid | hid
    · exact hpassed.queued id hid
    · exact hmem id (ConnectorFunctor.cancelTimer.inj (List.mem_singleton.mp hid)).symm

/-- A timer is taken out of the set with those that are due. -/
theorem Timed.expires (h : Timed s) (hid : id ∈ s.timers) :
    Timed { s with timers := s.timers.erase id, due := s.due ++ [id] } := by
  have hperm : (s.timers.erase id ++ (s.due ++ [id])).Perm (s.timers ++ s.due) := by
    rw [← List.append_assoc]
    refine (List.perm_append_singleton id _).trans ?_
    exact (List.perm_cons_erase hid).symm.append_right s.due
  have hmem (j : ℕ) : j ∈ s.timers.erase id ∨ j ∈ s.due ++ [id] ↔ j ∈ s.timers ∨ j ∈ s.due := by
    rw [← List.mem_append, ← List.mem_append]
    exact hperm.mem_iff
  refine ⟨fun j hj ↦ h.fresh j ?_, hperm.nodup_iff.mpr h.nodup, h.queued, fun j hj ↦ ?_⟩
  · rw [← or_assoc] at hj ⊢
    exact hj.imp_left (hmem j).mp
  · obtain ⟨hreturned, hstopped, hgone⟩ := h.current j hj
    refine ⟨hreturned, hstopped, fun hopen ↦ (hgone hopen).trans ?_⟩
    rw [← not_or, ← not_or]
    exact not_congr (hmem j).symm

/-- The callback of a timer runs. -/
theorem Timed.fires (h : Timed s) (hid : id ∈ s.due) :
    Timed { s with due := s.due.erase id, fired := s.fired ++ [id] } := by
  obtain ⟨-, hdue, hdisjoint⟩ := List.nodup_append.mp h.nodup
  refine ⟨fun j hj ↦ ?_, h.nodup.sublist (List.erase_sublist.append_left _), h.queued,
    fun j hj ↦ ?_⟩
  · rcases hj with hj | hj | hj | hj
    · exact h.fresh j (Or.inl hj)
    · exact h.fresh j (Or.inr (Or.inl (List.mem_of_mem_erase hj)))
    · rcases List.mem_append.mp hj with hj | hj
      · exact h.fresh j (Or.inr (Or.inr (Or.inl hj)))
      · exact h.fresh j (Or.inr (Or.inl (List.mem_singleton.mp hj ▸ hid)))
    · exact h.fresh j (Or.inr (Or.inr (Or.inr hj)))
  · obtain ⟨hreturned, hstopped, hgone⟩ := h.current j hj
    refine ⟨hreturned, hstopped, fun hopen ↦ ?_⟩
    change j ∈ s.fired ++ [id] ↔ j ∉ s.timers ∧ j ∉ s.due.erase id
    -- the timer that fires is the last one, or has nothing to do with it
    by_cases hne : j = id
    · subst hne
      refine iff_of_true (List.mem_append_right _ List.mem_cons_self) ⟨fun hmem ↦ ?_, ?_⟩
      · exact hdisjoint j hmem j hid rfl
      · exact hdue.not_mem_erase
    · rw [List.mem_append, List.mem_singleton, or_iff_left hne, List.mem_erase_of_ne hne]
      exact hgone hopen

/-! ## Runs -/

theorem Timed.runFunctor (h : Timed s) {f : ConnectorFunctor} {fs : List ConnectorFunctor}
    (hfs : s.pendingFunctors = f :: fs) :
    Outcome (ConnectorSession.runFunctor { s with pendingFunctors := fs } a f) Timed
      (fun _ ↦ True) := by
  have hpopped : Timed { s with pendingFunctors := fs } := by
    refine h.congr rfl fun id hid ↦ ?_
    rw [hfs]
    exact List.mem_cons_of_mem f hid
  cases f with
  | startInLoop => exact hpopped.startInLoop
  | resetChannel => exact hpopped.congr rfl fun _ ↦ id
  | cancelTimer timer =>
    refine hpopped.cancelInLoop fun id hid ↦ h.queued id ?_
    rw [hfs, Option.mem_def.mp hid]
    exact List.mem_cons_self

/-- The step lemma. -/
theorem Timed.step (h : Timed s) : Outcome (ConnectorSession.step s i) Timed (fun _ ↦ True) := by
  have hconnect (connect : Bool) : Timed (s.setConnect connect) := h.congr rfl fun _ ↦ id
  rw [ConnectorSession.step]
  split
  · cases i with
    | start thread a =>
      cases thread with
      | loop => exact (hconnect true).startInLoop
      | other =>
        refine (hconnect true).congr rfl fun id hid ↦ ?_
        exact (List.mem_append.mp hid).resolve_right
          fun hid ↦ absurd (List.mem_singleton.mp hid) nofun
    | stop thread => exact (hconnect false).cancelTimer thread
    | restart a =>
      have hrestarted : Timed { s with
          restarts := s.restarts + 1
          connector := { s.connector with
            state := .kDisconnected, retryDelayMs := kInitRetryDelayMs, connect := true } } :=
        h.congr rfl fun _ ↦ id
      exact hrestarted.startInLoop
    | handleEvent sockfd revents err isSelfConnect =>
      rw [live]
      split
      · split
        · exact h.handleEvent revents err isSelfConnect
        · exact trivial
      · exact trivial
    | expires timer =>
      rw [live]
      split
      · exact h.expires ‹_›
      · exact trivial
    | fires timer a =>
      rw [live]
      split
      · exact (h.fires ‹_›).startInLoop
      · exact trivial
    | pending a =>
      rw [live]
      split
      · exact h.runFunctor ‹_›
      · exact trivial
    | destroy thread =>
      refine outcome_of (fun s' hs' ↦ ?_) fun _ _ ↦ trivial
      obtain ⟨⟨⟩, -, hs'⟩ := bind_eq_ok.mp hs'
      obtain rfl := Except.ok.inj hs'
      exact (h.cancelTimer thread).congr rfl fun _ ↦ id
  · exact trivial

/-- **The timers that are canceled.** Along a run, `timer_` can be canceled whenever it is if and
only if each time the last `retry` waits. -/
theorem cancelsLive_iff (steps : List Step) :
    Along step (OnCancel TimerLive) new steps ↔ Along step (OnCancel Waiting) new steps := by
  refine along_congr (fun s i s' h _ hs' ↦ ?_) (fun s i h ↦ ?_) timed_new
  · exact h.step.of_ok hs'
  · cases i with
    | stop thread => exact imp_congr_right fun _ ↦ h.timerLive_iff
    | destroy thread => exact imp_congr_right fun _ ↦ h.timerLive_iff
    | _ => exact Iff.rfl

/-- A connector that never had to retry passes a pointer that was not set, when it is stopped and
when it is destroyed; one whose timer has run passes that of a timer that was released; and one that
was stopped passes the same pointer again when it is destroyed. -/
theorem not_cancelsLive :
    ¬Along step (OnCancel TimerLive) new [.start .loop ⟨3, none⟩, .stop .loop] ∧
      ¬Along step (OnCancel TimerLive) new [.destroy .loop] ∧
      ¬Along step (OnCancel TimerLive) new [.start .loop ⟨3, some .ECONNREFUSED⟩, .expires 0,
        .fires 0 ⟨4, none⟩, .stop .loop] ∧
      ¬Along step (OnCancel TimerLive) new [.start .loop ⟨3, some .ECONNREFUSED⟩, .stop .loop,
        .destroy .loop] := by
  decide

end ConnectorSession

end Twnl
