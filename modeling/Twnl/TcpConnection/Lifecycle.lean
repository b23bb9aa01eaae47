import Twnl.TcpConnection.Closing

/-!
# The life of a connection

The connection callback is called when the connection comes up and when it has gone down, and the
close callback when it goes down of itself. Along an orderly run this is so whatever the events, the
answers of the kernel and the calls of users (`lifecycle`), provided the owner does not destroy a
connection that is half closed: `connectDestroyed` takes down only one whose state is `kConnected`.
Where other threads call the connection too, none of them may set the state of one that was closed
since it looked (`KeepsClosed`).

## The invariant

The callbacks made are those of the phase the connection is in (`Phased`). Moves make none and do
not close, and a closing makes the two that lead to the next phase.
-/

namespace Twnl

namespace TcpConnection

open Buffer Machine Relation

/-- The states in which the connection callback was called. -/
def connectionStates (log : List Effect) : List StateE :=
  log.filterMap fun
    | .connectionCallback g => some g.state
    | .accepted _ | .shutdownWrite | .messageCallback _ _ | .closeCallback _ => none

/-- How often the close callback was called. -/
def closeCallbacks (log : List Effect) : ℕ :=
  log.countP fun
    | .closeCallback _ => true
    | .accepted _ | .shutdownWrite | .messageCallback _ _ | .connectionCallback _ => false

@[simp] theorem connectionStates_append (log log' : List Effect) :
    connectionStates (log ++ log') = connectionStates log ++ connectionStates log' :=
  List.filterMap_append

@[simp] theorem closeCallbacks_append (log log' : List Effect) :
    closeCallbacks (log ++ log') = closeCallbacks log + closeCallbacks log' := List.countP_append

/-- The callbacks made are those of the phase. -/
def Phased (s : Session) : Prop :=
  (s.Up ∧ connectionStates s.log = [.kConnected] ∧ closeCallbacks s.log = 0) ∨
    (s.conn.state = .kDisconnected ∧ connectionStates s.log = [.kConnected, .kDisconnected] ∧
      closeCallbacks s.log ≤ 1)

instance : DecidablePred Phased := fun _ ↦ inferInstanceAs (Decidable (_ ∨ _))

variable {k : Masks} {m : Mode} {r : Bool} {s s' : Session} {i : Step} {env : Env}

/-! ## Moves and closings -/

theorem Effect.Plain.callbacks {e : Effect} (h : e.Plain) :
    connectionStates [e] = [] ∧ closeCallbacks [e] = 0 := by
  cases e with
  | accepted _ | shutdownWrite | messageCallback _ _ => exact ⟨rfl, rfl⟩
  | connectionCallback _ | closeCallback _ => exact absurd h id

/-- A move calls no callback of the connection's ends. -/
theorem Move.callbacks (h : Move k r s s') (hs : Live s) :
    connectionStates s'.log = connectionStates s.log ∧
      closeCallbacks s'.log = closeCallbacks s.log := by
  cases h with
  | output _ | input _ | queue _ | queueReading _ _ | dequeue _ | revents _ | calls _ _
  | halfClose _ => exact ⟨rfl, rfl⟩
  | record h =>
    obtain ⟨hstates, hcloses⟩ := h.callbacks
    constructor
    · rw [Session.record, connectionStates_append, hstates, List.append_nil]
    · rw [Session.record, closeCallbacks_append, hcloses, Nat.add_zero]
  | enableWriting _ hcall | disableWriting _ hcall =>
    rw [(Called.of_ok hs hcall).log_eq]
    exact ⟨rfl, rfl⟩
  | startRead _ _ hcall | stopRead _ _ _ hcall =>
    have hlog := (Called.of_ok hs hcall).log_eq
    exact ⟨congrArg connectionStates hlog, congrArg closeCallbacks hlog⟩

theorem Moves.callbacks (h : Moves k r s s') (hs : Live s) :
    connectionStates s'.log = connectionStates s.log ∧
      closeCallbacks s'.log = closeCallbacks s.log := by
  induction h with
  | refl => exact ⟨rfl, rfl⟩
  | tail hfirst hlast ih =>
    obtain ⟨hstates, hcloses⟩ := hlast.callbacks (Moves.live hfirst hs)
    exact ⟨hstates.trans ih.1, hcloses.trans ih.2⟩

/-- A connection that is up stays up under moves. -/
theorem Move.up (h : Move k r s s') (hs : Live s) (hup : s.Up) : s'.Up := by
  cases h with
  | output _ | input _ | queue _ | queueReading _ _ | dequeue _ | record _ | revents _
  | calls _ _ => exact hup
  | halfClose _ => exact Or.inr rfl
  | enableWriting _ hcall | disableWriting _ hcall =>
    rw [Session.Up, (Called.of_ok hs hcall).state_eq]
    exact hup
  | startRead _ _ hcall | stopRead _ _ _ hcall =>
    have hstate := (Called.of_ok hs hcall).state_eq
    exact hup.imp hstate.trans hstate.trans

theorem Moves.up (h : Moves k r s s') (hs : Live s) (hup : s.Up) : s'.Up :=
  (h.inv (I := fun s ↦ Live s ∧ s.Up)
    (fun _ _ ht hmove ↦ ⟨hmove.live ht.1, hmove.up ht.1 ht.2⟩) ⟨hs, hup⟩).2

theorem Phased.of_moves (h : Phased s) (hmoves : Moves k r s s') (hs : Live s) : Phased s' := by
  obtain ⟨hstates, hcloses⟩ := hmoves.callbacks hs
  rw [Phased, hstates, hcloses]
  rcases h with ⟨hup, hlog⟩ | ⟨hclosed, hlog⟩
  · exact Or.inl ⟨hmoves.up hs hup, hlog⟩
  · exact Or.inr ⟨(hmoves.closed hs).1.mpr hclosed, hlog⟩

/-- The invariant of a run that leaves reading alone: a closed connection has no interest left, and
no functor brings any back. -/
structure LifeInv (s : Session) : Prop where
  live : Live s
  phased : Phased s
  silent : s.conn.state = .kDisconnected → s.conn.channel.events = 0
  plain : ∀ f ∈ s.pendingFunctors, f.isPlain = true

theorem not_isWriting_of_events (h : s.conn.channel.events = 0) :
    s.conn.channel.isWriting k = false := by
  have hzero : 0 &&& k.kWriteEvent = 0 := BitVec.zero_and
  rw [Channel.isWriting, h, hzero]
  rfl

theorem Move.lifeInv (h : Move k false s s') (hs : LifeInv s) : LifeInv s' := by
  have hphased : Phased s' := hs.phased.of_moves (.single h) hs.live
  have hlive : Live s' := h.live hs.live
  cases h with
  | output _ | input _ | record _ | revents _ | calls _ _ =>
    exact ⟨hlive, hphased, hs.silent, hs.plain⟩
  | queue hf =>
    refine ⟨hlive, hphased, hs.silent, fun f hmem ↦ ?_⟩
    rcases List.mem_append.mp hmem with hmem | hmem
    · exact hs.plain f hmem
    · exact List.mem_singleton.mp hmem ▸ hf
  | dequeue hqueue =>
    refine ⟨hlive, hphased, hs.silent, fun f hmem ↦ hs.plain f ?_⟩
    rw [hqueue]
    exact List.mem_cons_of_mem _ hmem
  | halfClose _ => exact ⟨hlive, hphased, nofun, hs.plain⟩
  | enableWriting hstate hcall =>
    have hcalled := Called.of_ok hs.live hcall
    refine ⟨hlive, hphased, fun hclosed ↦ absurd (hcalled.state_eq ▸ hclosed) hstate, ?_⟩
    rw [hcalled.same]
    exact hs.plain
  | disableWriting hwriting hcall =>
    have hcalled := Called.of_ok hs.live hcall
    refine ⟨hlive, hphased, fun hclosed ↦ ?_, ?_⟩
    · have hquiet := not_isWriting_of_events (k := k) (hs.silent (hcalled.state_eq ▸ hclosed))
      rw [hwriting] at hquiet
      exact absurd hquiet (by decide)
    · rw [hcalled.same]
      exact hs.plain
  | queueReading hr _ | startRead hr _ _ | stopRead hr _ _ _ => exact absurd hr Bool.false_ne_true

theorem Moves.lifeInv (h : Moves k false s s') (hs : LifeInv s) : LifeInv s' :=
  h.inv (fun _ _ ht hmove ↦ hmove.lifeInv ht) hs

theorem Called.events_disableAll (h : Called (Masks.initDefaultEvent m) s .disableAll s') :
    s'.conn.channel.events = 0 := by
  rw [h.events]
  cases m <;> rfl

/-- The connection callback of a connection that goes down. -/
theorem downInv {s₁ : Session} (h : LifeInv s) (hup : s.Up)
    (hcalled : Called (Masks.initDefaultEvent m) (s.setState .kDisconnected) .disableAll s₁) :
    LifeInv (s₁.record (.connectionCallback s₁.glance)) ∧
      closeCallbacks (s₁.record (.connectionCallback s₁.glance)).log = 0 := by
  have hlive : Live s₁ := hcalled.live ⟨h.live.input, h.live.output, h.live.standing⟩
  have hstate : s₁.conn.state = .kDisconnected := hcalled.state_eq
  have hlog : s₁.log = s.log := hcalled.log_eq
  have hphase : connectionStates s.log = [.kConnected] ∧ closeCallbacks s.log = 0 := by
    rcases h.phased with ⟨-, hphase⟩ | ⟨hclosed, -⟩
    · exact hphase
    · exact absurd hclosed hup.state_ne
  have hcloses : closeCallbacks (s₁.log ++ [.connectionCallback s₁.glance]) = 0 := by
    rw [hlog, closeCallbacks_append, hphase.2]
    rfl
  have hstates : connectionStates (s₁.log ++ [.connectionCallback s₁.glance]) =
      [.kConnected, .kDisconnected] := by
    rw [hlog, connectionStates_append, hphase.1, ← hstate]
    rfl
  refine ⟨⟨⟨hlive.input, hlive.output, hlive.standing⟩, ?_, fun _ ↦ hcalled.events_disableAll, ?_⟩,
    hcloses⟩
  · exact Or.inr ⟨hstate, hstates, Nat.le_of_eq hcloses |>.trans (Nat.zero_le 1)⟩
  · rw [hcalled.same]
    exact h.plain

theorem Closes.lifeInv (h : Closes (Masks.initDefaultEvent m) false s s') (hs : LifeInv s)
    (hup : s.Up) : LifeInv s' := by
  obtain ⟨s₁, s₂, hcalled, hmoves, rfl⟩ := h
  obtain ⟨hinv, hcloses⟩ := downInv hs hup hcalled
  obtain ⟨hlive, hphased, hsilent, hplain⟩ := hmoves.lifeInv hinv
  have hcloses₂ := (hmoves.callbacks hinv.live).2.trans hcloses
  have hclosed : s₂.conn.state = .kDisconnected := (hmoves.closed hinv.live).1.mpr hcalled.state_eq
  refine ⟨⟨hlive.input, hlive.output, hlive.standing⟩, ?_, hsilent, hplain⟩
  rcases hphased with ⟨hup₂, -⟩ | ⟨-, hstates, -⟩
  · exact absurd hclosed hup₂.state_ne
  · refine Or.inr ⟨hclosed, ?_, ?_⟩
    · rw [Session.record, connectionStates_append, hstates]
      rfl
    · rw [Session.record, closeCallbacks_append, hcloses₂]
      exact le_rfl

/-- No call from another thread sets the state of a connection that was closed since it looked. -/
def KeepsClosed (s : Session) : Step → Prop
  | .callSets c => ¬Reopens s c
  | .handleEvent _ _ | .user _ | .callBegins _ | .callEnds _ | .pending _ => True

instance (s : Session) : DecidablePred (KeepsClosed s)
  | .callSets _ => inferInstanceAs (Decidable (¬_))
  | .handleEvent _ _ | .user _ | .callBegins _ | .callEnds _ | .pending _ => .isTrue trivial

theorem Transition.lifeInv (h : Transition (Masks.initDefaultEvent m) false s s' i)
    (hs : LifeInv s) (hkeeps : KeepsClosed s i) : LifeInv s' := by
  cases h with
  | stays h => exact h.lifeInv hs
  | ends _ hbefore hup _ hcloses hafter =>
    exact hafter.lifeInv (hcloses.lifeInv (hbefore.lifeInv hs) hup)
  | reopens hi hreopens _ =>
    subst hi
    exact absurd hreopens hkeeps

/-- An orderly step does not open a closed connection. -/
theorem Transition.closed (h : Transition k r s s' i) (hs : Live s) (hkeeps : KeepsClosed s i)
    (hclosed : s.conn.state = .kDisconnected) : s'.conn.state = .kDisconnected := by
  cases h with
  | stays h => exact (h.closed hs).1.mpr hclosed
  | ends _ hbefore hup _ _ _ =>
    exact absurd ((hbefore.closed hs).1.mpr hclosed) hup.state_ne
  | reopens hi hreopens _ =>
    subst hi
    exact absurd hreopens hkeeps

theorem Phased.state_ne (h : Phased s) : s.conn.state ≠ .kConnecting := by
  rcases h with ⟨hup | hup, -⟩ | ⟨hclosed, -⟩
  · rw [hup]; exact StateE.noConfusion
  · rw [hup]; exact StateE.noConfusion
  · rw [hclosed]; exact StateE.noConfusion

/-- The step lemma. -/
theorem step_lifeInv (hs : LifeInv s) (hcalls : ∀ c ∈ i.calls, c.isPlain = true)
    (horderly : Orderly (Masks.initDefaultEvent m) s i) (hkeeps : KeepsClosed s i) :
    Outcome (step (Masks.initDefaultEvent m) s i) (fun s' ↦ LifeInv s' ∧
      (s.conn.state = .kDisconnected → s'.conn.state = .kDisconnected)) EnvFault := by
  have hallowed : CallsAllowed (Masks.initDefaultEvent m) false s i := ⟨hcalls, hs.plain⟩
  exact (step_transition hs.live hs.phased.state_ne horderly hallowed).imp fun s' hs' ↦
    ⟨hs'.lifeInv hs hkeeps, hs'.closed hs.live hkeeps⟩

/-! ## The ends -/

/-- A connection that was just established. -/
theorem lifeInv_established {fresh : Session} (h : Fresh fresh) {onUp : List UserCall}
    (hcalls : ∀ c ∈ onUp, c.isPlain = true)
    (hest : connectEstablished (Masks.initDefaultEvent m) fresh onUp = .ok s) : LifeInv s := by
  obtain ⟨s₁, hcalled, hlive, heq⟩ :=
    connectEstablished_of_fresh (k := Masks.initDefaultEvent m) h onUp
  have hstate : s₁.conn.state = .kConnected := hcalled.state_eq
  have hlog : s₁.log = [] := hcalled.log_eq.trans h.log
  have hup : LifeInv (s₁.record (.connectionCallback s₁.glance)) := by
    refine ⟨⟨hlive.input, hlive.output, hlive.standing⟩, Or.inl ⟨Or.inl hstate, ?_, ?_⟩,
      fun hclosed ↦ ?_, ?_⟩
    · rw [Session.record, hlog, ← hstate]
      rfl
    · rw [Session.record, hlog]
      rfl
    · exact absurd (hstate.symm.trans hclosed) StateE.noConfusion
    · rw [hcalled.same]
      change ∀ f ∈ fresh.pendingFunctors, _
      rw [h.pendingFunctors]
      exact fun f hf ↦ absurd hf List.not_mem_nil
  rw [heq] at hest
  have hmoves : Outcome (connectionCallback (Masks.initDefaultEvent m) s₁ onUp) LifeInv EnvFault :=
    (inCallback_moves hup.live fun c hc ↦ Or.inl (hcalls c hc)).imp
      fun _ hrest ↦ Moves.lifeInv hrest hup
  exact hmoves.of_ok hest

/-- Removing a channel without interest. -/
theorem channelRemove_spec (h : Live s) (hevents : s.conn.channel.events = 0) :
    ∃ s', s.channelRemove (Masks.initDefaultEvent m) = .ok s' ∧ s'.log = s.log ∧
      s'.conn.state = s.conn.state ∧ s'.conn.channel.events = 0 ∧ s'.watched = false := by
  have hnone : s.conn.channel.isNoneEvent (Masks.initDefaultEvent m) = true := by
    rw [Channel.isNoneEvent, hevents]
    cases m <;> rfl
  obtain ⟨st, -, hstands⟩ := h.standing
  obtain ⟨p, hp, hremoved⟩ := EpollPoller.removeChannel_spec hstands
  refine ⟨{ s with
    poller := p, conn := { s.conn with channel := { s.conn.channel with index := kDeleted } } },
    ?_, rfl, rfl, hevents, ?_⟩
  · rw [Session.channelRemove, check_pos hnone, bind_ok, hp]
    rfl
  · change (p.interest s.conn.channel.fd).isSome = false
    rw [hremoved.interest_eq_none (by decide)]
    rfl

/-- Destroying a connection that is not half closed completes its life. -/
theorem connectDestroyed_lifeInv (h : LifeInv s) (hstate : s.conn.state ≠ .kDisconnecting)
    (hcalls : ∀ c ∈ env.onConnection, c.isPlain = true) :
    Outcome (connectDestroyed (Masks.initDefaultEvent m) s env) (fun s' ↦
      s'.conn.state = .kDisconnected ∧ connectionStates s'.log = [.kConnected, .kDisconnected] ∧
        closeCallbacks s'.log ≤ 1) EnvFault := by
  have hremove : ∀ t, LifeInv t → t.conn.state = .kDisconnected →
      Outcome (t.channelRemove (Masks.initDefaultEvent m)) (fun s' ↦
        s'.conn.state = .kDisconnected ∧ connectionStates s'.log = [.kConnected, .kDisconnected] ∧
          closeCallbacks s'.log ≤ 1) EnvFault := by
    intro t ht hclosed
    obtain ⟨s', hs', hlog, hstate', -⟩ := channelRemove_spec (m := m) ht.live (ht.silent hclosed)
    rw [hs', outcome_ok, hstate', hlog]
    rcases ht.phased with ⟨hup, -⟩ | hphase
    · exact absurd hclosed hup.state_ne
    · exact hphase
  rw [connectDestroyed]
  rcases h.phased with ⟨hup, -⟩ | ⟨hclosed, -⟩
  · obtain ⟨s₁, hs₁, hcalled, hlive, -⟩ :=
      disableAll_spec (k := Masks.initDefaultEvent m) h.live
    have hdown := (downInv h hup hcalled).1
    rw [handleIf, hup.resolve_right hstate, if_pos (by decide), destroyConnected, hs₁, bind_ok]
    refine (connectionCallback_moves (r := false) hlive
      fun c hc ↦ Or.inl (hcalls c hc)).bind fun t ht ↦ ?_
    exact hremove t (ht.lifeInv hdown) ((ht.closed hdown.live).1.mpr hcalled.state_eq)
  · rw [handleIf, hclosed, if_neg (by decide), bind_ok]
    exact hremove s h hclosed

theorem EnvFault.ne_handleClose {e : Fault} (h : EnvFault e) : e ≠ .assertion .handleClose := by
  rintro rfl
  rcases h with (h | h | h | h) | h <;> exact absurd h (by decide)

/-- The faults of a connection that keeps to its life. -/
def BenignFault (e : Fault) : Prop := EnvFault e ∧ e ≠ .assertion .handleClose

theorem benign_of_envFault {P Q : Session → Prop} {x : Except Fault Session}
    (h : Outcome x P EnvFault) (hPQ : ∀ s, P s → Q s) : Outcome x Q BenignFault := by
  cases x with
  | ok s => exact hPQ s h
  | error e => exact ⟨h, EnvFault.ne_handleClose h⟩

/-- **The life of a connection.** Along every orderly run of an established connection, in which
users send, shut down and force the close, and do so in time from other threads, the callbacks made
are those of the phase, a closed connection stays closed, and the assert of `handleClose` holds; and
a connection that is destroyed after such a run, unless it is half closed then, has had its
connection callback twice and its close callback at most once. -/
theorem lifecycle {ptr : ℕ} {fd : ℤ} {wc : Bool} {hw : Option ℕ} {conn : TcpConnection}
    {poller : EpollPoller} (hnew : TcpConnection.new ptr fd wc hw = .ok conn)
    (hfresh : poller.Stands conn.channel .fresh) {onUp : List UserCall}
    (hup : ∀ c ∈ onUp, c.isPlain = true)
    (hest : connectEstablished (Masks.initDefaultEvent m) (.start conn poller) onUp = .ok s)
    {steps : List Step} (hcalls : ∀ i ∈ steps, ∀ c ∈ i.calls, c.isPlain = true)
    (horderly : Along (step (Masks.initDefaultEvent m))
      (fun t i ↦ Orderly (Masks.initDefaultEvent m) t i ∧ KeepsClosed t i) s steps) :
    Along (step (Masks.initDefaultEvent m)) (fun t i ↦
        Outcome (step (Masks.initDefaultEvent m) t i) (fun t' ↦ Phased t' ∧
          (t.conn.state = .kDisconnected → t'.conn.state = .kDisconnected)) BenignFault) s steps ∧
      ∀ t, run (step (Masks.initDefaultEvent m)) s steps = .ok t →
        t.conn.state ≠ .kDisconnecting → ∀ env : Env,
          (∀ c ∈ env.onConnection, c.isPlain = true) →
          Outcome (connectDestroyed (Masks.initDefaultEvent m) t env) (fun t' ↦
            t'.conn.state = .kDisconnected ∧
              connectionStates t'.log = [.kConnected, .kDisconnected] ∧
              closeCallbacks t'.log ≤ 1) BenignFault := by
  have hinv : LifeInv s := lifeInv_established (fresh_start hnew hfresh) hup hest
  have hplain : Along (step (Masks.initDefaultEvent m))
      (fun _ i ↦ ∀ c ∈ i.calls, c.isPlain = true) s steps := along_of_forall hcalls
  have hboth := along_and.mpr ⟨hplain, horderly⟩
  have hstep : ∀ t i t', LifeInv t → (∀ c ∈ i.calls, c.isPlain = true) ∧
      Orderly (Masks.initDefaultEvent m) t i ∧ KeepsClosed t i →
      step (Masks.initDefaultEvent m) t i = .ok t' → LifeInv t' :=
    fun t i t' ht hi ht' ↦ ((step_lifeInv ht hi.1 hi.2.1 hi.2.2).of_ok ht').1
  refine ⟨Along.guarantee hstep (fun t i ht hi ↦ ?_) hboth hinv, fun t hrun hstate env henv ↦ ?_⟩
  · exact benign_of_envFault (step_lifeInv ht hi.1 hi.2.1 hi.2.2)
      fun t' ht' ↦ ⟨ht'.1.phased, ht'.2⟩
  · have ht : LifeInv t := Along.run_inv hstep hboth hinv hrun
    exact benign_of_envFault (connectDestroyed_lifeInv ht hstate henv) fun _ h ↦ h

/-- An event without answers of the kernel and without calls of users. -/
def Env.silent : Env := ⟨[], fun _ ↦ .fails .EAGAIN, 0, [], [], []⟩

/-- A connection that answers what it reads and whose peer then closes. -/
theorem lifecycle_of_echo :
    ∃ s, connectEstablished (Masks.initDefaultEvent .LT) (.start newConn .new) [] = .ok s ∧
      Along (step (Masks.initDefaultEvent .LT)) (fun t i ↦
        Outcome (step (Masks.initDefaultEvent .LT) t i) (fun t' ↦ Phased t' ∧
          (t.conn.state = .kDisconnected → t'.conn.state = .kDisconnected)) BenignFault) s
        [.handleEvent EPOLLIN { Env.silent with
          reads := [.data [7, 8]], consumed := 2, onMessage := [.send [7, 8] (.accepts 2)] },
        .handleEvent (EPOLLIN ||| EPOLLHUP) { Env.silent with reads := [.data []] }] :=
  ⟨_, rfl, (lifecycle new_eq_newConn stands_newConn (List.forall_mem_nil _) rfl (by decide)
    (by decide +kernel)).1⟩

/-- A hang-up that comes with something to read closes twice when what there is to read is the end
of the input; and a connection that its owner destroys while it is half closed is not told that it
goes down. -/
theorem not_lifecycle :
    (∃ s, connectEstablished (Masks.initDefaultEvent .LT) (.start newConn .new) [] = .ok s ∧
      Outcome (step (Masks.initDefaultEvent .LT) s (.handleEvent (EPOLLHUP ||| EPOLLRDHUP)
        { Env.silent with reads := [.data []] })) (fun _ ↦ False)
        (· = .assertion .handleClose)) ∧
    ∃ s t, connectEstablished (Masks.initDefaultEvent .LT) (.start newConn .new) [] = .ok s ∧
      run (step (Masks.initDefaultEvent .LT)) s [.user .shutdown] = .ok t ∧
      connectionStates t.log = [.kConnected] ∧
      Outcome (connectDestroyed (Masks.initDefaultEvent .LT) t .silent) (fun _ ↦ False)
        (· = .assertion .channelRemove) :=
  ⟨⟨_, rfl, by decide +kernel⟩, _, _, rfl, rfl, by decide, by decide +kernel⟩

end TcpConnection

end Twnl
