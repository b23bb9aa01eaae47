import Mathlib.Data.List.Count
import Mathlib.Data.List.Nodup
import Mathlib.Data.List.Perm.Basic
import Twnl.Connector.Basic

/-!
# What becomes of a connector's sockets

Every socket that `connect` makes is held by the channel of the attempt under way, or was disposed
of once: closed, or handed over. The channel of an attempt that has ended stays until its functor
runs, so that a connector is in one of three stages, and the next attempt cannot begin in between.

`restart` is the exception to this order: it disconnects the connector in whatever state that is.
The law (`conserved`) is about runs that call it at most once for each socket handed over, and
after it was.
-/

namespace Twnl

namespace ConnectorSession

open Connector TcpClient Machine

variable {s s' : ConnectorSession} {a : Attempt} {i : Step} {fd : ℤ} {state : States}

/-! ## The law -/

/-- The socket is being connected: the channel that has it is the one in the poller. -/
def OpenAttempt (s : ConnectorSession) (sockfd : ℤ) : Prop :=
  (∃ c ∈ s.connector.channel, c.fd = sockfd) ∧ s.poller = [sockfd]

structure Conserved (s : ConnectorSession) : Prop where
  once : ∀ sockfd ∈ s.created,
    OpenAttempt s sockfd ∧ s.closed.count sockfd + s.handedOver.count sockfd = 0 ∨
      sockfd ∉ s.poller ∧ s.closed.count sockfd + s.handedOver.count sockfd = 1
  connecting : s.connector.state = .kConnecting ↔ ∃ sockfd ∈ s.created, OpenAttempt s sockfd

/-- `restart` comes after a hand-over, and once for each. -/
def Paid (s : ConnectorSession) : Step → Prop
  | .restart _ => s.restarts < s.handedOver.length
  | .start _ _ | .stop _ | .handleEvent _ _ _ _ | .expires _ | .fires _ _ | .pending _
  | .destroy _ => True

instance (s : ConnectorSession) : DecidablePred s.Paid
  | .restart _ => inferInstanceAs (Decidable (_ < _))
  | .start _ _ | .stop _ | .handleEvent _ _ _ _ | .expires _ | .fires _ _ | .pending _
  | .destroy _ => inferInstanceAs (Decidable True)

/-- An assert failed, or the run was none. -/
def Asserted (f : Fault) : Prop := f = .impossible ∨ ∃ site, f = .assertion site

/-! ## The invariant -/

/-- The stages: no channel, an attempt under way, and a channel that waits for its reset. -/
def Stage (state : States) (channel : Option AttemptChannel) (poller : List ℤ) (resets : ℕ) :
    Prop :=
  match channel with
  | none => state ≠ .kConnecting ∧ poller = [] ∧ resets = 0
  | some ⟨fd, true⟩ => state = .kConnecting ∧ poller = [fd] ∧ resets = 0
  | some ⟨_, false⟩ => state ≠ .kConnecting ∧ poller = [] ∧ resets = 1

structure Sound (s : ConnectorSession) : Prop where
  stage : Stage s.connector.state s.connector.channel s.poller
    (s.pendingFunctors.count .resetChannel)
  ledger : ∀ fd, s.poller.count fd + (s.closed.count fd + s.handedOver.count fd) =
    s.created.count fd
  nodup : s.created.Nodup
  paid : s.handedOver.length ≤ s.restarts + 1
  owing : s.restarts < s.handedOver.length → s.connector.state = .kConnected

theorem sound_new : Sound new :=
  ⟨⟨nofun, rfl, rfl⟩, fun _ ↦ rfl, List.nodup_nil, Nat.zero_le _, nofun⟩

/-- The connector's own data and the record of its sockets are all that matters. -/
theorem Sound.congr (h : Sound s) (hstate : s'.connector.state = s.connector.state)
    (hchannel : s'.connector.channel = s.connector.channel) (hpoller : s'.poller = s.poller)
    (hcount : s'.pendingFunctors.count .resetChannel = s.pendingFunctors.count .resetChannel)
    (hcreated : s'.created = s.created) (hclosed : s'.closed = s.closed)
    (hhanded : s'.handedOver = s.handedOver) (hrestarts : s'.restarts = s.restarts) : Sound s' := by
  refine ⟨?_, ?_, ?_, ?_, ?_⟩
  · rw [hstate, hchannel, hpoller, hcount]
    exact h.stage
  · rw [hpoller, hclosed, hhanded, hcreated]
    exact h.ledger
  · rw [hcreated]
    exact h.nodup
  · rw [hhanded, hrestarts]
    exact h.paid
  · rw [hhanded, hrestarts, hstate]
    exact h.owing

/-- While an attempt is under way, its channel is the one in the poller. -/
theorem Stage.attempt {channel : Option AttemptChannel} {poller : List ℤ} {n : ℕ}
    (h : Stage .kConnecting channel poller n) :
    ∃ fd, channel = some ⟨fd, true⟩ ∧ poller = [fd] ∧ n = 0 := by
  match channel, h with
  | some ⟨fd, true⟩, ⟨_, hpoller, hn⟩ => exact ⟨fd, rfl, hpoller, hn⟩
  | some ⟨fd, false⟩, ⟨hstate, _⟩ => exact absurd rfl hstate
  | none, ⟨hstate, _⟩ => exact absurd rfl hstate

/-- Otherwise the poller has none. -/
theorem Stage.poller_eq_nil {channel : Option AttemptChannel} {poller : List ℤ} {n : ℕ}
    (h : Stage state channel poller n) (hstate : state ≠ .kConnecting) : poller = [] := by
  match channel, h with
  | some ⟨fd, true⟩, ⟨hstate', _⟩ => exact absurd hstate' hstate
  | some ⟨fd, false⟩, ⟨_, hpoller, _⟩ => exact hpoller
  | none, ⟨_, hpoller, _⟩ => exact hpoller

/-- What the poller has is the attempt under way. -/
theorem Sound.mem_poller (h : Sound s) :
    fd ∈ s.poller ↔ s.connector.state = .kConnecting ∧ OpenAttempt s fd := by
  constructor
  · intro hmem
    have hstate : s.connector.state = .kConnecting := by
      by_contra hstate
      rw [h.stage.poller_eq_nil hstate] at hmem
      exact absurd hmem List.not_mem_nil
    have hstage := h.stage
    rw [hstate] at hstage
    obtain ⟨fd', hchannel, hpoller, -⟩ := hstage.attempt
    rw [hpoller] at hmem
    obtain rfl := List.mem_singleton.mp hmem
    exact ⟨hstate, ⟨_, hchannel, rfl⟩, hpoller⟩
  · rintro ⟨-, -, hpoller⟩
    rw [hpoller]
    exact List.mem_singleton.mpr rfl

theorem Sound.conserves (h : Sound s) : Conserved s := by
  refine ⟨fun sockfd hmem ↦ ?_, fun hstate ↦ ?_, fun ⟨sockfd, _, hopen⟩ ↦ ?_⟩
  · have hcount := h.ledger sockfd
    rw [List.count_eq_one_of_mem h.nodup hmem] at hcount
    -- the ledger counts a socket once, in the poller or as disposed of
    by_cases hpoller : sockfd ∈ s.poller
    · have hopen := (h.mem_poller.mp hpoller).2
      rw [hopen.2, List.count_singleton_self] at hcount
      exact Or.inl ⟨hopen, by omega⟩
    · rw [List.count_eq_zero_of_not_mem hpoller, Nat.zero_add] at hcount
      exact Or.inr ⟨hpoller, hcount⟩
  · have hstage := h.stage
    rw [hstate] at hstage
    obtain ⟨fd, -, hpoller, -⟩ := hstage.attempt
    have hmem : fd ∈ s.poller := by
      rw [hpoller]
      exact List.mem_singleton.mpr rfl
    have hcreated : fd ∈ s.created := by
      have hcount := h.ledger fd
      rw [hpoller, List.count_singleton_self] at hcount
      exact List.count_pos_iff.mp (by omega)
    exact ⟨fd, hcreated, (h.mem_poller.mp hmem).2⟩
  · have hmem : sockfd ∈ s.poller := by
      rw [hopen.2]
      exact List.mem_singleton.mpr rfl
    exact (h.mem_poller.mp hmem).1

/-! ## Attempts -/

/-- A retry closes its socket, disconnects the connector and may set a timer. -/
theorem retry_frame (s : ConnectorSession) (fd : ℤ) :
    (s.retry fd).connector.state = .kDisconnected ∧
      (s.retry fd).connector.channel = s.connector.channel ∧ (s.retry fd).poller = s.poller ∧
      (s.retry fd).pendingFunctors = s.pendingFunctors ∧ (s.retry fd).created = s.created ∧
      (s.retry fd).closed = s.closed ++ [fd] ∧ (s.retry fd).handedOver = s.handedOver ∧
      (s.retry fd).restarts = s.restarts := by
  rw [retry]
  split <;> exact ⟨rfl, rfl, rfl, rfl, rfl, rfl, rfl, rfl⟩

theorem nodup_concat {l : List ℤ} (h : l.Nodup) (hnew : fd ∉ l) : (l ++ [fd]).Nodup := by
  rw [← List.concat_eq_append]
  exact h.concat hnew

/-- A socket that was just made is closed. -/
theorem Sound.closeNew (h : Sound s) (hnew : fd ∉ s.created)
    (hstate : s'.connector.state = s.connector.state)
    (hchannel : s'.connector.channel = s.connector.channel) (hpoller : s'.poller = s.poller)
    (hfs : s'.pendingFunctors = s.pendingFunctors) (hcreated : s'.created = s.created ++ [fd])
    (hclosed : s'.closed = s.closed ++ [fd]) (hhanded : s'.handedOver = s.handedOver)
    (hrestarts : s'.restarts = s.restarts) : Sound s' := by
  refine ⟨?_, fun x ↦ ?_, ?_, ?_, ?_⟩
  · rw [hstate, hchannel, hpoller, hfs]
    exact h.stage
  · have hcount := h.ledger x
    rw [hpoller, hclosed, hhanded, hcreated, List.count_append, List.count_append]
    omega
  · rw [hcreated]
    exact nodup_concat h.nodup hnew
  · rw [hhanded, hrestarts]
    exact h.paid
  · rw [hhanded, hrestarts, hstate]
    exact h.owing

/-- The attempt gets under way, unless the channel of the last one is still there. -/
theorem Sound.connecting (h : Sound s) (hstate : s.connector.state = .kDisconnected)
    (hnew : fd ∉ s.created) :
    Outcome (connecting { s with created := s.created ++ [fd] } fd) Sound Asserted := by
  rw [ConnectorSession.connecting]
  by_cases hchannel : s.connector.channel = none
  · rw [check_pos hchannel, bind_ok, outcome_ok]
    have hstage := h.stage
    rw [hchannel] at hstage
    obtain ⟨-, hpoller, hfs⟩ := hstage
    refine ⟨⟨rfl, ?_, hfs⟩, fun x ↦ ?_, nodup_concat h.nodup hnew, h.paid, fun howing ↦ ?_⟩
    · change s.poller ++ [fd] = [fd]
      rw [hpoller, List.nil_append]
    · have hcount := h.ledger x
      change (s.poller ++ [fd]).count x + (s.closed.count x + s.handedOver.count x) =
        (s.created ++ [fd]).count x
      rw [List.count_append, List.count_append]
      omega
    · have hstate' := h.owing howing
      rw [hstate] at hstate'
      exact absurd hstate' nofun
  · rw [check_neg hchannel]
    exact Or.inr ⟨_, rfl⟩

/-- An attempt gets under way, or its socket is closed. -/
theorem Sound.connect (h : Sound s) (hstate : s.connector.state = .kDisconnected) :
    Outcome (s.connect a) Sound Asserted := by
  rw [ConnectorSession.connect]
  split
  · exact Or.inl rfl
  · rename_i hnew
    have hconnecting := h.connecting hstate hnew
    have hclose : Sound (close { s with created := s.created ++ [a.sockfd] } a.sockfd) :=
      h.closeNew hnew rfl rfl rfl rfl rfl rfl rfl rfl
    have hretry : Sound (retry { s with created := s.created ++ [a.sockfd] } a.sockfd) := by
      obtain ⟨hstate', hchannel, hpoller, hfs, hcreated, hclosed, hhanded, hrestarts⟩ :=
        retry_frame { s with created := s.created ++ [a.sockfd] } a.sockfd
      exact h.closeNew hnew (hstate'.trans hstate.symm) hchannel hpoller hfs hcreated hclosed
        hhanded hrestarts
    split
    all_goals first | exact hconnecting | exact hretry | exact hclose

theorem Sound.startInLoop (h : Sound s) : Outcome (s.startInLoop a) Sound Asserted := by
  rw [ConnectorSession.startInLoop]
  by_cases hstate : s.connector.state = .kDisconnected
  · rw [check_pos hstate, bind_ok]
    split
    · exact h.connect hstate
    · exact h
  · rw [check_neg hstate]
    exact Or.inr ⟨_, rfl⟩

/-- A socket that was handed over gives the right to disconnect the connector. -/
theorem Sound.restart (h : Sound s) (hpaid : s.restarts < s.handedOver.length) :
    Outcome (s.restart a) Sound Asserted := by
  have hstate := h.owing hpaid
  -- a connector whose socket was handed over attempts nothing
  have hnot : s.connector.state ≠ .kConnecting := by
    rw [hstate]
    exact nofun
  refine startInLoop (s := { s with
    restarts := s.restarts + 1
    connector := { s.connector with
      state := .kDisconnected, retryDelayMs := kInitRetryDelayMs, connect := true } })
    ⟨?_, h.ledger, h.nodup, Nat.le_succ_of_le h.paid, fun howing ↦ ?_⟩
  · have hstage := h.stage
    change Stage .kDisconnected s.connector.channel s.poller _
    match hchannel : s.connector.channel with
    | none =>
      rw [hchannel] at hstage
      exact ⟨nofun, hstage.2⟩
    | some ⟨fd, false⟩ =>
      rw [hchannel] at hstage
      exact ⟨nofun, hstage.2⟩
    | some ⟨fd, true⟩ =>
      rw [hchannel] at hstage
      exact absurd hstage.1 hnot
  · have hlate : s.restarts + 1 < s.handedOver.length := howing
    exact absurd h.paid (Nat.not_le.mpr hlate)

/-! ## The end of an attempt -/

/-- The attempt ends, and its socket is closed or handed over. -/
theorem Sound.ends (h : Sound s) (hchannel : s.connector.channel = some ⟨fd, true⟩)
    (hstate' : s'.connector.state ≠ .kConnecting)
    (hchannel' : s'.connector.channel = some ⟨fd, false⟩) (hpoller' : s'.poller = [])
    (hfs : s'.pendingFunctors = s.pendingFunctors ++ [.resetChannel])
    (hcreated : s'.created = s.created) (hrestarts : s'.restarts = s.restarts)
    (hdisposed : s'.closed = s.closed ++ [fd] ∧ s'.handedOver = s.handedOver ∨
      s'.closed = s.closed ∧ s'.handedOver = s.handedOver ++ [fd] ∧
        s'.connector.state = .kConnected) : Sound s' := by
  have hstage := h.stage
  rw [hchannel] at hstage
  obtain ⟨hstate, hpoller, hcount⟩ := hstage
  -- whoever has a connection up is in no attempt
  have hquit : s.handedOver.length ≤ s.restarts := by
    by_contra howing
    have hconnected := h.owing (Nat.not_le.mp howing)
    rw [hstate] at hconnected
    exact absurd hconnected nofun
  refine ⟨?_, fun x ↦ ?_, hcreated ▸ h.nodup, ?_, fun howing ↦ ?_⟩
  · rw [hchannel', hfs, List.count_append, hcount]
    exact ⟨hstate', hpoller', rfl⟩
  · have hledger := h.ledger x
    rw [hpoller] at hledger
    rw [hpoller', hcreated, List.count_nil, ← hledger]
    rcases hdisposed with ⟨hclosed, hhanded⟩ | ⟨hclosed, hhanded, -⟩
    · rw [hclosed, hhanded, List.count_append]
      omega
    · rw [hclosed, hhanded, List.count_append]
      omega
  · rw [hrestarts]
    rcases hdisposed with ⟨-, hhanded⟩ | ⟨-, hhanded, -⟩
    · rw [hhanded]
      exact h.paid
    · rw [hhanded, List.length_append]
      exact Nat.succ_le_succ hquit
  · rw [hrestarts] at howing
    rcases hdisposed with ⟨-, hhanded⟩ | ⟨-, -, hconnected⟩
    · rw [hhanded] at howing
      exact absurd hquit (Nat.not_le.mpr howing)
    · exact hconnected

/-- What the handlers begin with. -/
theorem Sound.removeAndResetChannel (h : Sound s) (hstate : s.connector.state = .kConnecting) :
    ∃ r fd, s.removeAndResetChannel = .ok (r, fd) ∧
      (∀ s', s'.connector.state ≠ .kConnecting → s'.connector.channel = r.connector.channel →
        s'.poller = r.poller → s'.pendingFunctors = r.pendingFunctors → s'.created = r.created →
        s'.restarts = r.restarts →
        (s'.closed = r.closed ++ [fd] ∧ s'.handedOver = r.handedOver ∨
          s'.closed = r.closed ∧ s'.handedOver = r.handedOver ++ [fd] ∧
            s'.connector.state = .kConnected) → Sound s') := by
  have hstage := h.stage
  rw [hstate] at hstage
  obtain ⟨fd, hchannel, hpoller, -⟩ := hstage.attempt
  rw [ConnectorSession.removeAndResetChannel, hchannel]
  refine ⟨_, fd, rfl, fun s' hstate' hchannel' hpoller' hfs hcreated hrestarts hdisposed ↦ ?_⟩
  refine h.ends hchannel hstate' hchannel' ?_ hfs hcreated hrestarts hdisposed
  rw [hpoller']
  change s.poller.erase fd = []
  rw [hpoller, List.erase_cons_head]

theorem Sound.handleError (h : Sound s) : Outcome s.handleError Sound Asserted := by
  rw [ConnectorSession.handleError]
  by_cases hstate : s.connector.state = .kConnecting
  · obtain ⟨r, fd, hr, hends⟩ := h.removeAndResetChannel hstate
    rw [check_pos hstate, bind_ok, hr, bind_ok, outcome_ok]
    obtain ⟨hstate', hchannel, hpoller, hfs, hcreated, hclosed, hhanded, hrestarts⟩ :=
      retry_frame r fd
    exact hends _ (hstate' ▸ nofun) hchannel hpoller hfs hcreated hrestarts
      (Or.inl ⟨hclosed, hhanded⟩)
  · rw [check_neg hstate]
    exact Or.inr ⟨_, rfl⟩

theorem Sound.handleWrite (h : Sound s) (err : ℤ) (isSelfConnect : Bool) :
    Outcome (s.handleWrite err isSelfConnect) Sound Asserted := by
  rw [ConnectorSession.handleWrite]
  cases hstate : s.connector.state with
  | kDisconnected => exact h
  | kConnected => exact Or.inr ⟨_, rfl⟩
  | kConnecting =>
    obtain ⟨r, fd, hr, hends⟩ := h.removeAndResetChannel hstate
    have hretry : Sound (r.retry fd) := by
      obtain ⟨hstate', hchannel, hpoller, hfs, hcreated, hclosed, hhanded, hrestarts⟩ :=
        retry_frame r fd
      exact hends _ (hstate' ▸ nofun) hchannel hpoller hfs hcreated hrestarts
        (Or.inl ⟨hclosed, hhanded⟩)
    simp only [hr, bind_ok]
    split
    · exact hretry
    · split
      · exact hretry
      · split
        · exact hends _ nofun rfl rfl rfl rfl rfl (Or.inr ⟨rfl, rfl, rfl⟩)
        · exact hends _ nofun rfl rfl rfl rfl rfl (Or.inl ⟨rfl, rfl⟩)

theorem Sound.handleEvent (h : Sound s) (revents : Mask) (err : ℤ) (isSelfConnect : Bool) :
    Outcome (s.handleEvent revents err isSelfConnect) Sound Asserted :=
  handleEvent_outcome h h.handleError fun _ hr ↦ hr.handleWrite err isSelfConnect

/-! ## Timers and functors -/

theorem cancelInLoop_frame (s : ConnectorSession) (timer : Option ℕ) :
    (s.cancelInLoop timer).connector = s.connector ∧ (s.cancelInLoop timer).poller = s.poller ∧
      (s.cancelInLoop timer).pendingFunctors = s.pendingFunctors ∧
      (s.cancelInLoop timer).created = s.created ∧ (s.cancelInLoop timer).closed = s.closed ∧
      (s.cancelInLoop timer).handedOver = s.handedOver ∧
      (s.cancelInLoop timer).restarts = s.restarts := by
  cases timer with
  | none => exact ⟨rfl, rfl, rfl, rfl, rfl, rfl, rfl⟩
  | some id => exact ⟨rfl, rfl, rfl, rfl, rfl, rfl, rfl⟩

theorem Sound.cancelInLoop (h : Sound s) (timer : Option ℕ) : Sound (s.cancelInLoop timer) := by
  obtain ⟨hconnector, hpoller, hfs, hcreated, hclosed, hhanded, hrestarts⟩ :=
    cancelInLoop_frame s timer
  exact h.congr (by rw [hconnector]) (by rw [hconnector]) hpoller (by rw [hfs]) hcreated hclosed
    hhanded hrestarts

/-- A functor other than the reset is queued. -/
theorem Sound.queueInLoop (h : Sound s) {f : ConnectorFunctor} (hf : f ≠ .resetChannel) :
    Sound (s.queueInLoop f) := by
  refine h.congr rfl rfl rfl ?_ rfl rfl rfl rfl
  rw [ConnectorSession.queueInLoop, List.count_append, List.count_singleton,
    if_neg (beq_eq_false_iff_ne.mpr hf ▸ nofun), Nat.add_zero]

theorem Sound.cancelTimer (h : Sound s) (thread : Thread) : Sound (s.cancelTimer thread) := by
  have hpassed : Sound { s with
      passed := s.passed ++ s.connector.timer.toList, stopped := true } :=
    h.congr rfl rfl rfl rfl rfl rfl rfl rfl
  cases thread with
  | loop => exact hpassed.cancelInLoop _
  | other => exact hpassed.queueInLoop nofun

theorem Sound.setConnect (h : Sound s) (connect : Bool) : Sound (s.setConnect connect) :=
  h.congr rfl rfl rfl rfl rfl rfl rfl rfl

/-- A functor other than the reset is taken. -/
theorem Sound.popped (h : Sound s) {f : ConnectorFunctor} {fs : List ConnectorFunctor}
    (hfs : s.pendingFunctors = f :: fs) (hf : f ≠ .resetChannel) :
    Sound { s with pendingFunctors := fs } := by
  refine h.congr rfl rfl rfl ?_ rfl rfl rfl rfl
  rw [hfs]
  exact (List.count_cons_of_ne hf).symm

/-- The functor at the head of the queue runs. -/
theorem Sound.runFunctor (h : Sound s) {f : ConnectorFunctor} {fs : List ConnectorFunctor}
    (hfs : s.pendingFunctors = f :: fs) :
    Outcome (ConnectorSession.runFunctor { s with pendingFunctors := fs } a f) Sound Asserted := by
  cases f with
  | startInLoop => exact (h.popped hfs nofun).startInLoop
  | cancelTimer timer => exact (h.popped hfs nofun).cancelInLoop timer
  | resetChannel =>
    refine ⟨?_, h.ledger, h.nodup, h.paid, h.owing⟩
    have hstage := h.stage
    rw [hfs, List.count_cons_self] at hstage
    change Stage s.connector.state none s.poller _
    match hchannel : s.connector.channel with
    | none =>
      rw [hchannel] at hstage
      exact absurd hstage.2.2 (Nat.succ_ne_zero _)
    | some ⟨fd, true⟩ =>
      rw [hchannel] at hstage
      exact absurd hstage.2.2 (Nat.succ_ne_zero _)
    | some ⟨fd, false⟩ =>
      rw [hchannel] at hstage
      exact ⟨hstage.1, hstage.2.1, Nat.succ.inj hstage.2.2⟩

/-! ## Runs -/

/-- The step lemma. -/
theorem Sound.step (h : Sound s) (hi : s.Paid i) :
    Outcome (ConnectorSession.step s i) Sound Asserted := by
  rw [ConnectorSession.step]
  split
  · cases i with
    | start thread a =>
      cases thread with
      | loop => exact (h.setConnect true).startInLoop
      | other => exact (h.setConnect true).queueInLoop nofun
    | stop thread => exact (h.setConnect false).cancelTimer thread
    | restart a => exact h.restart hi
    | handleEvent sockfd revents err isSelfConnect =>
      rw [live]
      split
      · rename_i hmem
        -- the handlers find the channel that is in the poller
        rw [if_pos (h.mem_poller.mp hmem).2.1]
        exact h.handleEvent revents err isSelfConnect
      · exact Or.inl rfl
    | expires timer =>
      rw [live]
      split
      · exact h.congr rfl rfl rfl rfl rfl rfl rfl rfl
      · exact Or.inl rfl
    | fires timer a =>
      rw [live]
      split
      · have hfired : Sound { s with due := s.due.erase timer, fired := s.fired ++ [timer] } :=
          h.congr rfl rfl rfl rfl rfl rfl rfl rfl
        exact hfired.startInLoop
      · exact Or.inl rfl
    | pending a =>
      rw [live]
      split
      · exact h.runFunctor ‹_›
      · exact Or.inl rfl
    | destroy thread =>
      rw [live, ConnectorSession.destroy]
      have hcanceled := h.cancelTimer thread
      by_cases hchannel : (s.cancelTimer thread).connector.channel = none
      · rw [check_pos hchannel, bind_ok, outcome_ok]
        exact hcanceled.congr rfl rfl rfl rfl rfl rfl rfl rfl
      · rw [check_neg hchannel]
        exact Or.inr ⟨_, rfl⟩
  · exact Or.inl rfl

/-- **What becomes of the sockets.** -/
theorem conserved {steps : List Step} (hpaid : Along step Paid new steps) :
    Outcome (run step new steps) Conserved Asserted := by
  have hstep : ∀ s i s', Sound s → Paid s i → step s i = .ok s' → Sound s' :=
    fun s i s' h hi hs' ↦ (h.step hi).of_ok hs'
  refine outcome_of (fun s hrun ↦ ?_) fun f hrun ↦ ?_
  · exact (Along.run_inv hstep hpaid sound_new hrun).conserves
  · refine Along.run_error hstep (fun s i f h hi hf ↦ ?_) hpaid sound_new hrun
    have hfault := h.step hi
    rw [hf] at hfault
    exact hfault

/-- An attempt is refused, the next fails when its socket is polled, the third is handed over, and
the one that a `restart` makes fails for good. -/
theorem conserved_of_restart :
    ((run step new [.start .loop ⟨3, some .ECONNREFUSED⟩, .expires 0,
          .fires 0 ⟨4, some .EINPROGRESS⟩, .handleEvent 4 (EPOLLERR ||| EPOLLOUT) 111 false,
          .pending ⟨0, none⟩, .expires 1, .fires 1 ⟨5, none⟩, .handleEvent 5 EPOLLOUT 0 false,
          .pending ⟨0, none⟩, .restart ⟨6, some .EACCES⟩, .stop .loop]).toOption.map
        fun s ↦ (s.created, s.closed, s.handedOver)) = some ([3, 4, 5, 6], [3, 4, 6], [5]) ∧
      Outcome (run step new [.start .loop ⟨3, some .ECONNREFUSED⟩, .expires 0,
          .fires 0 ⟨4, some .EINPROGRESS⟩, .handleEvent 4 (EPOLLERR ||| EPOLLOUT) 111 false,
          .pending ⟨0, none⟩, .expires 1, .fires 1 ⟨5, none⟩, .handleEvent 5 EPOLLOUT 0 false,
          .pending ⟨0, none⟩, .restart ⟨6, some .EACCES⟩, .stop .loop]) Conserved Asserted :=
  ⟨by decide, conserved (by decide)⟩

end ConnectorSession

end Twnl
