import Twnl.Acceptor.Basic

/-!
# What is left in the queue

`handleRead` accepts one connection for each report. Level-triggered, what is left is reported
again. Edge-triggered, the reports that are still to come, the one that is being handled included,
are all that will ever take anything from the queue: a connection that comes while the socket is
already to be reported adds none, and from then on the queue is longer than they are. So in a loop
that waits, and does not have the socket to report, the queue is empty exactly when no connection
came too soon after another (`backlog_iff_spaced`).
-/

namespace Twnl

namespace Acceptor

open Machine Session

/-- Whether the channel is among the active ones. -/
def Phase.active : Phase → Bool
  | .blocked => false
  | .running active => active

namespace Session

/-- The calls of `handleRead` that are due in edge-triggered mode, if nothing more comes. -/
def due (s : Session) : ℕ := s.phase.active.toNat + s.notified.toNat

variable (s : Session)

/-! ## Operations -/

theorem length_backlog_arrive : s.arrive.backlog.length = s.backlog.length + 1 :=
  List.length_append

/-- What comes before the channel is in the poller changes nothing but the queue. -/
theorem iterate_arrive (n : ℕ) :
    (arrive^[n] s).acceptor = s.acceptor ∧ (arrive^[n] s).mode = s.mode ∧
      (arrive^[n] s).phase = s.phase ∧ (arrive^[n] s).backlog.length = s.backlog.length + n := by
  induction n generalizing s with
  | zero => exact ⟨rfl, rfl, rfl, rfl⟩
  | succ n ih =>
    obtain ⟨hacceptor, hmode, hphase, hlength⟩ := ih s.arrive
    refine ⟨hacceptor, hmode, hphase, hlength.trans ?_⟩
    rw [length_backlog_arrive]
    omega

/-- What listening leaves, with that many connections coming before the channel is in the poller. -/
theorem listen_spec (n : ℕ) :
    (s.listen n).acceptor = { s.acceptor with
        listenning := true
        acceptChannel := s.acceptor.acceptChannel.enableReading s.masks } ∧
      (s.listen n).mode = s.mode ∧ (s.listen n).phase = s.phase ∧
      (s.listen n).backlog.length = s.backlog.length + n ∧
      (s.listen n).notified = decide (s.backlog.length + n ≠ 0) := by
  obtain ⟨hacceptor, hmode, hphase, hlength⟩ :=
    iterate_arrive { s with acceptor := { s.acceptor with listenning := true } } n
  refine ⟨?_, hmode, hphase, hlength, ?_⟩
  · rw [listen, hacceptor, masks, hmode]
    rfl
  · refine decide_eq_decide.mpr (not_congr ?_)
    rw [← List.length_eq_zero_iff, hlength]

variable {s} {t : Session}

theorem take_eq_ok {handed : Bool} : s.take handed = .ok t ↔ ∃ conn backlog,
    s.backlog = conn :: backlog ∧
      t = { s with backlog := backlog, taken := s.taken ++ [(conn, handed)] } := by
  rw [take]
  cases hbacklog : s.backlog with
  | nil => simp
  | cons conn backlog => simp [eq_comm]

end Session

/-! ## The invariant -/

/-- The channel watches for connections once the socket listens, and in edge-triggered mode no more
calls of `handleRead` are due than there are connections. -/
structure Kept (s : Session) : Prop where
  events : s.acceptor.acceptChannel.events = if s.acceptor.listenning then s.masks.kReadEvent else 0
  idle : s.acceptor.listenning = false → s.backlog = [] ∧ s.due = 0
  due_le : s.mode = .ET → s.due ≤ s.backlog.length

variable {s t : Session} {i : Step}

theorem kept_start (mode : Mode) (callback : Bool) : Kept (.start mode callback) :=
  ⟨rfl, fun _ ↦ ⟨rfl, rfl⟩, fun _ ↦ Nat.le_refl 0⟩

namespace Kept

theorem watched_iff (h : Kept s) : s.Watched ↔ s.acceptor.listenning = true := by
  rw [Watched, h.events]
  split
  · rename_i hlisten
    exact iff_of_true (Masks.kReadEvent_and_in s.mode) hlisten
  · rename_i hlisten
    exact iff_of_false (by decide) hlisten

/-- When the socket is to be reported, by the trigger. -/
theorem notified_iff (h : Kept s) : s.Notified ↔ s.acceptor.listenning = true ∧
    match s.mode with
    | .LT => s.backlog ≠ []
    | .ET => s.notified = true := by
  rw [Notified, h.watched_iff]
  refine and_congr_right fun hlisten ↦ ?_
  rw [h.events, if_pos hlisten, masks]
  cases s.mode with
  | LT => exact iff_of_eq (if_neg (by decide))
  | ET => exact iff_of_eq (if_pos (by decide))

end Kept

/-! ## The condition -/

/-- The accept is answered with a connection. -/
def Succeeds : Step → Prop
  | .handleRead r => r = .accepts
  | .listen _ | .arrives | .poll | .returns _ => True

instance : DecidablePred Succeeds
  | .handleRead _ => inferInstanceAs (Decidable (_ = _))
  | .listen _ | .arrives | .poll | .returns _ => inferInstanceAs (Decidable True)

/-- In edge-triggered mode a connection comes only when the socket is not to be reported already,
and at most one comes while the socket begins to listen. -/
def Spaced (s : Session) : Step → Prop
  | .arrives => s.mode = .ET → s.notified = false
  | .listen arriving => s.mode = .ET → arriving ≤ 1
  | .poll | .returns _ | .handleRead _ => True

instance (s : Session) : DecidablePred (Spaced s)
  | .arrives => inferInstanceAs (Decidable (_ → _))
  | .listen _ => inferInstanceAs (Decidable (_ → _))
  | .poll | .returns _ | .handleRead _ => inferInstanceAs (Decidable True)

/-- The queue is as long as the calls that are due will make short. -/
def Settled (s : Session) : Prop := s.mode = .ET → s.backlog.length = s.due

/-! ## One step -/

theorem settled_start (mode : Mode) (callback : Bool) : Settled (.start mode callback) :=
  fun _ ↦ rfl

/-- A step that changes neither the mode nor the acceptor, and takes as much from the queue as from
the calls that are due. -/
theorem Kept.settled_iff (h : Kept s) (n : ℕ) (hmode : t.mode = s.mode)
    (hacceptor : t.acceptor = s.acceptor)
    (hidle : s.acceptor.listenning = false → t.backlog = [] ∧ t.due = 0)
    (hdue : s.mode = .ET → t.due + n = s.due) (hlength : t.backlog.length + n = s.backlog.length) :
    Kept t ∧ (Settled t ↔ Settled s) := by
  refine ⟨⟨?_, ?_, fun het ↦ ?_⟩, ?_⟩
  · rw [masks, hacceptor, hmode]
    exact h.events
  · rw [hacceptor]
    exact hidle
  · rw [hmode] at het
    have hle := h.due_le het
    have hdue := hdue het
    omega
  · rw [Settled, Settled, hmode]
    refine forall_congr' fun het ↦ ?_
    have hdue := hdue het
    omega

/-- The socket begins to listen. -/
theorem Kept.listen (h : Kept s) (hlisten : s.acceptor.listenning = false) (arriving : ℕ) :
    Kept (s.listen arriving) ∧
      (Settled (s.listen arriving) ↔ Settled s ∧ Spaced s (.listen arriving)) := by
  obtain ⟨hbacklog, hdue⟩ := h.idle hlisten
  obtain ⟨hacceptor, hmode, hphase, hlength, hnotified⟩ := listen_spec s arriving
  rw [hbacklog, List.length_nil, Nat.zero_add] at hlength hnotified
  have hdue' : (s.listen arriving).due = (decide (arriving ≠ 0)).toNat := by
    rw [due] at hdue ⊢
    rw [hphase, hnotified]
    omega
  constructor
  · constructor
    · have hmasks : (s.listen arriving).masks = s.masks := congrArg Masks.initDefaultEvent hmode
      rw [hacceptor, hmasks]
      change (s.acceptor.acceptChannel.events ||| s.masks.kReadEvent) = s.masks.kReadEvent
      rw [h.events, hlisten]
      exact BitVec.zero_or
    · rw [hacceptor]
      exact nofun
    · intro _
      rw [hdue', hlength]
      by_cases hzero : arriving = 0
      · simp [hzero]
      · simp [hzero]
        omega
  · have hsettled : Settled s := by
      intro _
      rw [hbacklog, hdue]
      rfl
    rw [Settled, Spaced, hmode, and_iff_right hsettled, hlength, hdue']
    refine forall_congr' fun _ ↦ ?_
    by_cases hzero : arriving = 0
    · simp [hzero]
    · simp [hzero]
      omega

/-- A connection comes. -/
theorem Kept.arrive (h : Kept s) (hlisten : s.acceptor.listenning = true) :
    Kept s.arrive ∧ (Settled s.arrive ↔ Settled s ∧ Spaced s .arrives) := by
  have hnotified : s.arrive.notified = true := by
    change (s.notified || decide s.Watched) = true
    rw [decide_eq_true (h.watched_iff.mpr hlisten), Bool.or_true]
  have hdue : s.arrive.due = s.phase.active.toNat + 1 := by
    rw [due, hnotified]
    rfl
  have hlength := length_backlog_arrive s
  have hmode : s.arrive.mode = s.mode := rfl
  constructor
  · refine ⟨h.events, fun hnot ↦ absurd (hlisten.symm.trans hnot) nofun, fun het ↦ ?_⟩
    have hle := h.due_le het
    rw [Session.due] at hle
    omega
  · rw [Settled, Settled, Spaced, hmode, ← forall_and]
    refine forall_congr' fun het ↦ ?_
    have hle := h.due_le het
    rw [Session.due] at hle
    rw [hlength, hdue, Session.due]
    -- the report that is still to come stands for this connection as well
    cases hbefore : s.notified with
    | false =>
      rw [hbefore] at hle
      simp only [Bool.toNat_false, and_true] at hle ⊢
      omega
    | true =>
      rw [hbefore] at hle
      simp only [Bool.toNat_true, reduceCtorEq, and_false, iff_false] at hle ⊢
      omega

/-- The step lemma. -/
theorem Kept.step (h : Kept s) (hi : Succeeds i) (ht : Acceptor.step s i = .ok t) :
    Kept t ∧ (Settled t ↔ Settled s ∧ Spaced s i) := by
  cases i with
  | listen arriving =>
    obtain ⟨⟨-, hlisten⟩, ht⟩ := ite_eq_ok.mp ht
    exact Except.ok.inj ht ▸ h.listen hlisten arriving
  | arrives =>
    obtain ⟨hlisten, ht⟩ := ite_eq_ok.mp ht
    exact Except.ok.inj ht ▸ h.arrive hlisten
  | poll =>
    obtain ⟨hphase, ht⟩ := ite_eq_ok.mp ht
    obtain rfl := Except.ok.inj ht
    have hdue : Session.due { s with phase := .blocked } = s.due := by
      rw [Session.due, Session.due, hphase]
      rfl
    rw [Spaced, and_true]
    exact h.settled_iff 0 rfl rfl (hdue ▸ h.idle) (fun _ ↦ hdue) rfl
  | returns reported =>
    obtain ⟨⟨hphase, hreported⟩, ht⟩ := ite_eq_ok.mp ht
    obtain rfl := Except.ok.inj ht
    -- where the flag tells whether the socket is to be reported, a report takes it over
    have hdue (hflag : reported = true → s.notified = true) : Session.due { s with
        phase := .running reported, notified := s.notified && !reported } = s.due := by
      rw [Session.due, Session.due, hphase]
      cases reported with
      | false => simp [Phase.active]
      | true => simp [Phase.active, hflag rfl]
    rw [Spaced, and_true]
    refine h.settled_iff 0 rfl rfl (fun hlisten ↦ ?_) (fun het ↦ hdue fun hrep ↦ ?_) rfl
    · have hnot : reported ≠ true := fun hrep ↦ by
        rw [(h.notified_iff.mp (hreported hrep)).1] at hlisten
        exact absurd hlisten nofun
      rw [hdue fun hrep ↦ absurd hrep hnot]
      exact h.idle hlisten
    · have hnotified := (h.notified_iff.mp (hreported hrep)).2
      rw [het] at hnotified
      exact hnotified
  | handleRead r =>
    obtain ⟨hphase, ht⟩ := ite_eq_ok.mp ht
    obtain rfl : r = .accepts := hi
    obtain ⟨conn, backlog, hbacklog, rfl⟩ := take_eq_ok.mp ht
    have hdue : s.due = s.notified.toNat + 1 := by
      rw [Session.due, hphase, Nat.add_comm]
      rfl
    rw [Spaced, and_true]
    refine h.settled_iff 1 rfl rfl (fun hlisten ↦ ?_) (fun _ ↦ ?_) ?_
    · have hzero := (h.idle hlisten).2
      omega
    · rw [hdue, Session.due]
      exact congrArg (· + 1) (Nat.zero_add _)
    · exact (congrArg List.length hbacklog).symm

/-! ## Runs -/

/-- In a loop that waits and does not have the socket to report, no call of `handleRead` is due. -/
theorem Kept.backlog_eq_nil_iff (h : Kept s) (hphase : s.phase = .blocked)
    (hnotified : ¬s.Notified) : s.backlog = [] ↔ Settled s := by
  rw [h.notified_iff] at hnotified
  by_cases hlisten : s.acceptor.listenning = true
  · have hnotified := fun h ↦ hnotified ⟨hlisten, h⟩
    cases hmode : s.mode with
    | LT =>
      rw [hmode] at hnotified
      refine iff_of_true (Classical.not_not.mp hnotified) fun het ↦ ?_
      exact absurd (hmode.symm.trans het) nofun
    | ET =>
      rw [hmode] at hnotified
      have hdue : s.due = 0 := by
        rw [Session.due, hphase, Bool.eq_false_iff.mpr hnotified]
        rfl
      rw [Settled, hdue, List.length_eq_zero_iff]
      exact ⟨fun hnil _ ↦ hnil, fun hsettled ↦ hsettled hmode⟩
  · obtain ⟨hbacklog, hdue⟩ := h.idle (Bool.eq_false_iff.mpr hlisten)
    refine iff_of_true hbacklog fun _ ↦ ?_
    rw [hbacklog, hdue]
    rfl

/-- **No connection is forgotten.** In every loop that waits and does not have the socket to report,
the queue is empty exactly when the trigger is the level, or no connection has come while the socket
was already to be reported. -/
theorem backlog_iff_spaced {mode : Mode} {callback : Bool} {steps : List Step}
    (hsucceeds : ∀ i ∈ steps, Succeeds i)
    (hrun : run step (.start mode callback) steps = .ok t) (hphase : t.phase = .blocked)
    (hnotified : ¬t.Notified) :
    t.backlog = [] ↔ Along step Spaced (.start mode callback) steps := by
  have hpres (s : Session) (i : Step) (t : Session) (h : Kept s) (hi : Succeeds i)
      (ht : step s i = .ok t) := h.step hi ht
  have hkept : Kept t := Along.run_inv (fun s i t h hi ht ↦ (hpres s i t h hi ht).1)
    (along_of_forall hsucceeds) (kept_start mode callback) hrun
  rw [hkept.backlog_eq_nil_iff hphase hnotified,
    run_iff_along_of (fun s i t h hi ht ↦ (hpres s i t h hi ht).1)
      (fun s i t h hi ht ↦ (hpres s i t h hi ht).2) (kept_start mode callback)
      (along_of_forall hsucceeds) hrun]
  exact and_iff_right (settled_start mode callback)

/-- Edge-triggered: one connection comes while the loop waits, another while it is accepted. -/
theorem backlog_two : ∃ t, run step (.start .ET true) [.listen 0, .poll, .arrives, .returns true,
      .arrives, .handleRead .accepts, .poll, .returns true, .handleRead .accepts, .poll] = .ok t ∧
    (t.backlog = [] ↔ Along step Spaced (.start .ET true) [.listen 0, .poll, .arrives,
      .returns true, .arrives, .handleRead .accepts, .poll, .returns true, .handleRead .accepts,
      .poll]) :=
  ⟨_, rfl, backlog_iff_spaced (by decide) rfl rfl (by decide)⟩

/-- Two connections come before the loop is back from `epoll_wait`. -/
theorem not_empty_burst : ∃ t, run step (.start .ET true) [.listen 0, .poll, .arrives, .arrives,
      .returns true, .handleRead .accepts, .poll] = .ok t ∧
    t.phase = .blocked ∧ ¬t.Notified ∧ t.backlog = [1] :=
  ⟨_, rfl, rfl, by decide, rfl⟩

/-! ## The order -/

/-- What was taken from the queue and what is left is what has come, in that order. -/
def InOrder (s : Session) : Prop := s.taken.map Prod.fst ++ s.backlog = List.range s.arrived

namespace InOrder

theorem arrive (h : InOrder s) : InOrder s.arrive := by
  change s.taken.map Prod.fst ++ (s.backlog ++ [s.arrived]) = List.range (s.arrived + 1)
  rw [← List.append_assoc, h, List.range_succ]

theorem iterate_arrive (h : InOrder s) (n : ℕ) : InOrder (Session.arrive^[n] s) := by
  induction n generalizing s with
  | zero => exact h
  | succ n ih => exact ih h.arrive

theorem take (h : InOrder s) {handed : Bool} (ht : s.take handed = .ok t) : InOrder t := by
  obtain ⟨conn, backlog, hbacklog, rfl⟩ := take_eq_ok.mp ht
  rw [InOrder, hbacklog] at h
  rw [InOrder, List.map_append, List.append_assoc]
  exact h

theorem handleRead (h : InOrder s) {r : AcceptResult} (ht : s.handleRead r = .ok t) :
    InOrder t := by
  rw [Session.handleRead.eq_def] at ht
  split at ht
  · exact h.take ht
  · exact h.take ht
  · exact Except.ok.inj ht ▸ h
  · exact Except.ok.inj ht ▸ h
  · exact Except.ok.inj ht ▸ h
  · exact Except.ok.inj ht ▸ h
  · exact Except.ok.inj ht ▸ h
  · exact Except.ok.inj ht ▸ h
  · exact absurd ht nofun

theorem step (h : InOrder s) (ht : Acceptor.step s i = .ok t) : InOrder t := by
  cases i with
  | listen arriving =>
    obtain rfl := Except.ok.inj (ite_eq_ok.mp ht).2
    have hlistenning : InOrder { s with acceptor := { s.acceptor with listenning := true } } := h
    exact hlistenning.iterate_arrive arriving
  | arrives => exact Except.ok.inj (ite_eq_ok.mp ht).2 ▸ h.arrive
  | poll => exact Except.ok.inj (ite_eq_ok.mp ht).2 ▸ h
  | returns reported => exact Except.ok.inj (ite_eq_ok.mp ht).2 ▸ h
  | handleRead r =>
    have hrunning : InOrder { s with phase := .running false } := h
    exact hrunning.handleRead (ite_eq_ok.mp ht).2

end InOrder

/-- Whatever `accept` answers, no connection is accepted twice, out of order, or lost from the
queue. -/
theorem inOrder_run {mode : Mode} {callback : Bool} {steps : List Step}
    (hrun : run step (.start mode callback) steps = .ok t) : InOrder t :=
  run_inv (fun _ _ _ h ht ↦ InOrder.step h ht) (rfl : InOrder (.start mode callback)) hrun

end Acceptor

end Twnl
