import Twnl.TcpConnection.Lifecycle

/-!
# A closed connection stays silent

A closed connection has no interest, and the kernel does not watch its descriptor. Two things can
undo that: a call that switches reading on again, which `startReadInLoop` and `stopReadInLoop` do
not refuse on a closed connection, and an update of a channel that is out of the interest set
already, which puts it back with an empty mask. Along runs without them the connection is silent
(`silence`).

## The invariant

`Tidy` says where the channel stands with the poller: it is in the interest set while it has events,
and out of it when the connection is closed. Moves keep it, and so does a closing, if there is an
interest left to take away. A call from another thread that sets the state of a closed connection
leaves the channel as it is.
-/

namespace Twnl

namespace TcpConnection

open Buffer Channel Machine Relation

variable {k : Masks} {m : Mode} {r : Bool} {s s' : Session} {i : Step} {env : Env}

/-- A glance at a closed connection finds no events and no watch. -/
def Glance.Silent (g : Glance) : Prop :=
  g.state = .kDisconnected → g.events = 0 ∧ g.watched = false

instance : DecidablePred Glance.Silent := fun _ ↦ inferInstanceAs (Decidable (_ → _))

/-- What the callbacks of the connection's ends saw. -/
def glances (log : List Effect) : List Glance :=
  log.filterMap fun
    | .connectionCallback g | .closeCallback g => some g
    | .accepted _ | .shutdownWrite | .messageCallback _ _ => none

@[simp] theorem glances_append (log log' : List Effect) :
    glances (log ++ log') = glances log ++ glances log' := List.filterMap_append

/-- The connection is silent if it is closed, and was silent whenever a callback told of its end. -/
structure SilentWhenClosed (s : Session) : Prop where
  now : s.glance.Silent
  before : ∀ g ∈ glances s.log, g.Silent

instance : DecidablePred SilentWhenClosed := fun s ↦
  decidable_of_iff (s.glance.Silent ∧ ∀ g ∈ glances s.log, g.Silent)
    ⟨fun h ↦ ⟨h.1, h.2⟩, fun h ↦ ⟨h.now, h.before⟩⟩

/-- The channel is in the interest set, or it has no events and was taken out. -/
def Session.Settled (s : Session) : Prop :=
  s.Stands .added ∨ s.conn.channel.events = 0 ∧ s.Stands .disabled

/-- The invariant. -/
structure Tidy (s : Session) : Prop where
  live : Live s
  opened : s.conn.state ≠ .kConnecting
  settled : s.Settled
  silent : s.conn.state = .kDisconnected → s.conn.channel.events = 0 ∧ s.Stands .disabled
  before : ∀ g ∈ glances s.log, g.Silent

theorem Tidy.glance_silent (h : Tidy s) : s.glance.Silent := by
  intro hclosed
  obtain ⟨hevents, hstands⟩ := h.silent hclosed
  refine ⟨hevents, ?_⟩
  change (s.poller.interest s.conn.channel.fd).isSome = false
  rw [hstands.interest_eq_none nofun]
  rfl

theorem Tidy.silentWhenClosed (h : Tidy s) : SilentWhenClosed s := ⟨h.glance_silent, h.before⟩

/-! ## Moves and closings -/

/-- A channel with events is in the interest set. -/
theorem Session.Settled.added (h : s.Settled) (hne : s.conn.channel.events ≠ 0) :
    s.Stands .added := h.resolve_right fun ⟨hevents, _⟩ ↦ hne hevents

/-- Every call settles the channel again. -/
theorem Called.settled {a : Channel.Call} (h : Called (Masks.initDefaultEvent m) s a s')
    (hs : s.Settled) : s'.Settled := by
  rcases hs with hadded | ⟨-, hdisabled⟩
  · have hstands := h.standing .added EpollPoller.Standing.noConfusion hadded
    cases hnone : (s.conn.channel.call (Masks.initDefaultEvent m) a).isNoneEvent
        (Masks.initDefaultEvent m) with
    | true =>
      rw [hnone] at hstands
      rw [Channel.isNoneEvent, Masks.kNoneEvent_eq_zero, beq_iff_eq, ← h.events] at hnone
      exact Or.inr ⟨hnone, hstands⟩
    | false =>
      rw [hnone] at hstands
      exact Or.inl hstands
  · -- a channel that was taken out is put back whatever its events
    exact Or.inl (h.standing .disabled EpollPoller.Standing.noConfusion hdisabled)

/-- A call on a channel that is not closed. -/
theorem Tidy.of_called {t : Session} {a : Channel.Call} (hs : Tidy s) (reading : Bool)
    (hcalled : Called (Masks.initDefaultEvent m) s a t)
    (hopen : s.conn.state ≠ .kDisconnected) : Tidy (t.withReading reading) := by
  have hlive := hcalled.live hs.live
  have hstate := hcalled.state_eq
  refine ⟨⟨hlive.input, hlive.output, hlive.standing⟩, ?_, hcalled.settled hs.settled,
    fun hclosed ↦ absurd (hstate ▸ hclosed) hopen, ?_⟩
  · change t.conn.state ≠ _
    rw [hstate]
    exact hs.opened
  · change ∀ g ∈ glances t.log, g.Silent
    rw [hcalled.log_eq]
    exact hs.before

/-- A closed connection has no event to take away. -/
theorem Tidy.open_of_events (hs : Tidy s) (hne : s.conn.channel.events ≠ 0) :
    s.conn.state ≠ .kDisconnected := fun hclosed ↦ hne (hs.silent hclosed).1

theorem Move.tidy (h : Move (Masks.initDefaultEvent m) r s s') (hs : Tidy s) : Tidy s' := by
  have hlive : Live s' := h.live hs.live
  cases h with
  | output _ | input _ | queue _ | queueReading _ _ | dequeue _ | calls _ _ =>
    exact ⟨hlive, hs.opened, hs.settled, hs.silent, hs.before⟩
  | revents _ =>
    have hstands (st : EpollPoller.Standing) (h : s.Stands st) : (s.withRevents _).Stands st :=
      (EpollPoller.stands_congr rfl rfl rfl).mpr h
    exact ⟨hlive, hs.opened, hs.settled.imp (hstands _) fun ⟨hevents, h⟩ ↦ ⟨hevents, hstands _ h⟩,
      fun hclosed ↦ (hs.silent hclosed).imp_right (hstands _), hs.before⟩
  | @record e hplain =>
    refine ⟨hlive, hs.opened, hs.settled, hs.silent, ?_⟩
    have hnone : glances [e] = [] := by
      cases e with
      | accepted _ | shutdownWrite | messageCallback _ _ => rfl
      | connectionCallback _ | closeCallback _ => exact absurd hplain id
    rw [Session.record, glances_append, hnone, List.append_nil]
    exact hs.before
  | halfClose hup =>
    have hstate : (s.setState .kDisconnecting).conn.state = .kDisconnecting := rfl
    exact ⟨hlive, by simp [hstate], hs.settled, by simp [hstate], hs.before⟩
  | enableWriting hopen hcall =>
    exact hs.of_called s'.conn.reading (Called.of_ok hs.live hcall) hopen
  | disableWriting hwriting hcall =>
    have hne : s.conn.channel.events ≠ 0 := ne_zero_of_and (bne_iff_ne.mp hwriting)
    exact hs.of_called s'.conn.reading (Called.of_ok hs.live hcall) (hs.open_of_events hne)
  | startRead _ hopen hcall => exact hs.of_called true (Called.of_ok hs.live hcall) hopen
  | stopRead _ hstate hread hcall =>
    refine hs.of_called false (Called.of_ok hs.live hcall) fun hclosed ↦ ?_
    -- on a closed connection reading is on neither by the flag nor by the mask
    rcases hread with hreading | hreading
    · rw [hstate.resolve_left (not_not.mpr hclosed)] at hreading
      exact Bool.false_ne_true hreading
    · exact hs.open_of_events (ne_zero_of_and (bne_iff_ne.mp hreading)) hclosed

theorem Moves.tidy (h : Moves (Masks.initDefaultEvent m) r s s') (hs : Tidy s) : Tidy s' :=
  h.inv (fun _ _ ht hmove ↦ hmove.tidy ht) hs

/-- Recording what a callback sees keeps the invariant. -/
theorem Tidy.record_callback {e : Effect} (hs : Tidy s)
    (he : e = .connectionCallback s.glance ∨ e = .closeCallback s.glance) :
    Tidy (s.record e) := by
  have hlive : Live (s.record e) := ⟨hs.live.input, hs.live.output, hs.live.standing⟩
  refine ⟨hlive, hs.opened, hs.settled, hs.silent, fun g hg ↦ ?_⟩
  rw [Session.record, glances_append] at hg
  rcases List.mem_append.mp hg with hg | hg
  · exact hs.before g hg
  · have hglance : glances [e] = [s.glance] := by rcases he with rfl | rfl <;> rfl
    rw [hglance, List.mem_singleton] at hg
    exact hg ▸ hs.glance_silent

/-- Taking away the interest of a channel that has one. -/
theorem Tidy.of_disableAll {s₁ : Session} (hs : Tidy s) (hne : s.conn.channel.events ≠ 0)
    (hcalled : Called (Masks.initDefaultEvent m) (s.setState .kDisconnected) .disableAll s₁) :
    Tidy s₁ := by
  have hlive : Live s₁ := hcalled.live ⟨hs.live.input, hs.live.output, hs.live.standing⟩
  have hstate : s₁.conn.state = .kDisconnected := hcalled.state_eq
  have hstands : s₁.Stands .disabled := by
    have hupdated := hcalled.standing .added nofun (hs.settled.added hne)
    have hnone : ((s.setState .kDisconnected).conn.channel.call (Masks.initDefaultEvent m)
        .disableAll).isNoneEvent (Masks.initDefaultEvent m) = true := by cases m <;> rfl
    rw [hnone] at hupdated
    exact hupdated
  refine ⟨hlive, ?_, Or.inr ⟨hcalled.events_disableAll, hstands⟩,
    fun _ ↦ ⟨hcalled.events_disableAll, hstands⟩, ?_⟩
  · rw [hstate]
    exact StateE.noConfusion
  · rw [hcalled.log_eq]
    exact hs.before

theorem Closes.tidy (h : Closes (Masks.initDefaultEvent m) r s s') (hs : Tidy s)
    (hne : s.conn.channel.events ≠ 0) : Tidy s' := by
  obtain ⟨s₁, s₂, hcalled, hmoves, rfl⟩ := h
  have hdown := (hs.of_disableAll hne hcalled).record_callback (Or.inl rfl)
  exact (hmoves.tidy hdown).record_callback (Or.inr rfl)

/-! ## Runs -/

/-- A step that keeps a closed connection silent: it is orderly, it closes only a connection that
still has an interest, and what it calls on a closed connection is harmless. -/
def Discreet (k : Masks) (s : Session) (i : Step) : Prop :=
  Orderly k s i ∧ (Closing k s i → s.conn.channel.events ≠ 0) ∧
    ∀ c ∈ i.closedCalls k s, c.harmless s.conn.reading = true

instance (k : Masks) (s : Session) : DecidablePred (Discreet k s) := fun i ↦
  inferInstanceAs (Decidable (Orderly k s i ∧ (Closing k s i → s.conn.channel.events ≠ 0) ∧
    ∀ c ∈ i.closedCalls k s, c.harmless s.conn.reading = true))

/-- The same for the destruction of a connection. -/
def DestroyedDiscreetly (s : Session) (env : Env) : Prop :=
  (s.conn.state = .kConnected → s.conn.channel.events ≠ 0 ∧
    ∀ c ∈ env.onConnection, c.harmless s.conn.reading = true) ∧
  (s.conn.state = .kDisconnecting → s.conn.channel.events = 0)

/-- The faults of a connection that is silent when it is removed. -/
def SilentFault (e : Fault) : Prop := EnvFault e ∧ e ≠ .assertion .channelRemove

theorem EnvFault.ne_channelRemove {e : Fault} (h : EnvFault e) : e ≠ .assertion .channelRemove := by
  rintro rfl
  rcases h with (h | h | h | h) | h <;> exact absurd h (by decide)

theorem silent_of_envFault {P Q : Session → Prop} {x : Except Fault Session}
    (h : Outcome x P EnvFault) (hPQ : ∀ s, P s → Q s) : Outcome x Q SilentFault := by
  cases x with
  | ok s => exact hPQ s h
  | error e => exact ⟨h, EnvFault.ne_channelRemove h⟩

/-- A connection that is not closed any more is asked for nothing. -/
theorem Tidy.of_reopens {c : UserCall} (hs : Tidy s) (h : Reopens s c) : Tidy (callSets s c) := by
  obtain ⟨hmem, hclosed, hset⟩ := h
  have hstate : (callSets s c).conn.state = .kDisconnecting := by
    rw [callSets, if_pos hmem, hclosed]
    cases c with
    | shutdown | forceClose => rfl
    | send _ _ | sendBuffer _ _ | startRead | stopRead => exact absurd rfl hset
  have hrest : (callSets s c).conn.channel = s.conn.channel ∧
      (callSets s c).poller = s.poller ∧ (callSets s c).log = s.log ∧
      (callSets s c).conn.inputBuffer = s.conn.inputBuffer ∧
      (callSets s c).conn.outputBuffer = s.conn.outputBuffer := by
    rw [callSets, if_pos hmem]
    exact ⟨rfl, rfl, rfl, rfl, rfl⟩
  obtain ⟨hchannel, hpoller, hlog, hinput, houtput⟩ := hrest
  have hstands (st : EpollPoller.Standing) : (callSets s c).Stands st ↔ s.Stands st := by
    rw [Session.Stands, Session.Stands, hchannel, hpoller]
  refine ⟨⟨hinput ▸ hs.live.input, houtput ▸ hs.live.output, ?_⟩, ?_, ?_, ?_, hlog ▸ hs.before⟩
  · obtain ⟨st, hst, hstanding⟩ := hs.live.standing
    exact ⟨st, hst, (hstands st).mpr hstanding⟩
  · rw [hstate]
    exact StateE.noConfusion
  · rw [Session.Settled, hstands, hstands, hchannel]
    exact hs.settled
  · rw [hstate]
    exact StateE.noConfusion

/-- The step lemma. -/
theorem step_tidy (hs : Tidy s) (hi : Discreet (Masks.initDefaultEvent m) s i) :
    Outcome (step (Masks.initDefaultEvent m) s i) Tidy EnvFault := by
  obtain ⟨horderly, hinterest, hcalls⟩ := hi
  refine (step_transition (r := true) hs.live hs.opened horderly hcalls).imp fun s' hs' ↦ ?_
  cases hs' with
  | stays h => exact h.tidy hs
  | ends hclosing hbefore hup hevents hcloses hafter =>
    have hne := hinterest hclosing
    rw [← hevents] at hne
    exact hafter.tidy (hcloses.tidy (hbefore.tidy hs) hne)
  | reopens _ hreopens hs' => exact hs' ▸ hs.of_reopens hreopens

theorem tidy_established {fresh : Session} (h : Fresh fresh) {onUp : List UserCall}
    (hest : connectEstablished (Masks.initDefaultEvent m) fresh onUp = .ok s) : Tidy s := by
  obtain ⟨s₁, hcalled, hlive, heq⟩ :=
    connectEstablished_of_fresh (k := Masks.initDefaultEvent m) h onUp
  have hstate : s₁.conn.state = .kConnected := hcalled.state_eq
  have hstands : s₁.Stands .added := hcalled.standing .fresh nofun h.standing
  have hlog : s₁.log = [] := hcalled.log_eq.trans h.log
  have hup : Tidy s₁ := by
    refine ⟨hlive, by rw [hstate]; exact nofun, Or.inl hstands, fun hclosed ↦ ?_, ?_⟩
    · exact absurd (hstate.symm.trans hclosed) nofun
    · rw [hlog]
      exact fun g hg ↦ absurd hg List.not_mem_nil
  have htold := hup.record_callback (Or.inl rfl)
  rw [heq] at hest
  have hmoves : Outcome (connectionCallback (Masks.initDefaultEvent m) s₁ onUp) Tidy EnvFault := by
    refine (inCallback_moves (r := true) htold.live fun c _ ↦ Or.inr ⟨rfl, fun hclosed ↦ ?_⟩).imp
      fun _ hrest ↦ Moves.tidy hrest htold
    exact absurd (hstate.symm.trans hclosed) nofun
  exact hmoves.of_ok hest

/-- A connection that is destroyed discreetly is silent until its channel is removed, and then it is
not watched. -/
theorem connectDestroyed_tidy (h : Tidy s) (hd : DestroyedDiscreetly s env) :
    Outcome (connectDestroyed (Masks.initDefaultEvent m) s env) (fun s' ↦
      SilentWhenClosed s' ∧ s'.conn.channel.events = 0 ∧ s'.watched = false) EnvFault := by
  have hremove : ∀ t, Tidy t → t.conn.channel.events = 0 →
      Outcome (t.channelRemove (Masks.initDefaultEvent m)) (fun s' ↦
        SilentWhenClosed s' ∧ s'.conn.channel.events = 0 ∧ s'.watched = false) EnvFault := by
    intro t ht hevents
    obtain ⟨s', hs', hlog, -, hevents', hwatched⟩ := channelRemove_spec (m := m) ht.live hevents
    rw [hs', outcome_ok]
    exact ⟨⟨fun _ ↦ ⟨hevents', hwatched⟩, hlog ▸ ht.before⟩, hevents', hwatched⟩
  rw [connectDestroyed]
  cases hstate : s.conn.state with
  | kConnecting => exact absurd hstate h.opened
  | kConnected =>
    obtain ⟨hne, hcalls⟩ := hd.1 hstate
    obtain ⟨s₁, hs₁, hcalled, hlive, hclosed, hreading⟩ :=
      disableAll_spec (k := Masks.initDefaultEvent m) h.live
    have hdown := (h.of_disableAll hne hcalled).record_callback (Or.inl rfl)
    rw [handleIf, if_pos (by decide), destroyConnected, hs₁, bind_ok]
    refine (connectionCallback_moves (r := true) hlive fun c hc ↦
      Or.inr ⟨rfl, by rw [hreading]; exact hcalls c hc⟩).bind fun t ht ↦ ?_
    have htidy := ht.tidy hdown
    exact hremove t htidy (htidy.silent ((ht.closed hdown.live).1.mpr hclosed)).1
  | kDisconnected =>
    rw [handleIf, if_neg (by decide), bind_ok]
    exact hremove s h (h.silent hstate).1
  | kDisconnecting =>
    rw [handleIf, if_neg (by decide), bind_ok]
    exact hremove s h (hd.2 hstate)

/-- **A closed connection stays silent.** Along every discreet run of an established connection, it
has no events and is not watched while it is closed, nor was it when a callback told of its end; and
destroying it discreetly after such a run, the assert of `Channel::remove` holds. -/
theorem silence {ptr : ℕ} {fd : ℤ} {wc : Bool} {hw : Option ℕ} {conn : TcpConnection}
    {poller : EpollPoller} (hnew : TcpConnection.new ptr fd wc hw = .ok conn)
    (hfresh : poller.Stands conn.channel .fresh) {onUp : List UserCall}
    (hest : connectEstablished (Masks.initDefaultEvent m) (.start conn poller) onUp = .ok s)
    {steps : List Step}
    (hdiscreet : Along (step (Masks.initDefaultEvent m)) (Discreet (Masks.initDefaultEvent m))
      s steps) :
    Along (step (Masks.initDefaultEvent m)) (fun t i ↦
        Outcome (step (Masks.initDefaultEvent m) t i) SilentWhenClosed SilentFault) s steps ∧
      ∀ t, run (step (Masks.initDefaultEvent m)) s steps = .ok t → ∀ env : Env,
        DestroyedDiscreetly t env →
        Outcome (connectDestroyed (Masks.initDefaultEvent m) t env) (fun t' ↦
          SilentWhenClosed t' ∧ t'.conn.channel.events = 0 ∧ t'.watched = false) SilentFault := by
  have hinv : Tidy s := tidy_established (fresh_start hnew hfresh) hest
  have hstep : ∀ t i t', Tidy t → Discreet (Masks.initDefaultEvent m) t i →
      step (Masks.initDefaultEvent m) t i = .ok t' → Tidy t' :=
    fun t i t' ht hi ht' ↦ (step_tidy ht hi).of_ok ht'
  refine ⟨Along.guarantee hstep (fun t i ht hi ↦ ?_) hdiscreet hinv, fun t hrun env henv ↦ ?_⟩
  · exact silent_of_envFault (step_tidy ht hi) fun t' ht' ↦ ht'.silentWhenClosed
  · have ht : Tidy t := Along.run_inv hstep hdiscreet hinv hrun
    exact silent_of_envFault (connectDestroyed_tidy ht henv) fun _ h ↦ h

/-- Reading is stopped, and started again from another thread. Then the peer closes, and in the
callback reading is stopped; a `shutdown` that looked at the state before comes late. -/
theorem silence_of_eof :
    ∃ s, connectEstablished (Masks.initDefaultEvent .LT) (.start newConn .new) [] = .ok s ∧
      Along (step (Masks.initDefaultEvent .LT)) (fun t i ↦
        Outcome (step (Masks.initDefaultEvent .LT) t i) SilentWhenClosed SilentFault) s
        [.user .stopRead, .callBegins .startRead, .callSets .startRead, .callEnds .startRead,
          .pending .silent, .callBegins .shutdown,
          .handleEvent EPOLLIN { Env.silent with
            reads := [.data [1]], onMessage := [.stopRead, .send [2] (.accepts 0)] },
          .handleEvent EPOLLHUP Env.silent, .user .stopRead, .callSets .shutdown,
          .callEnds .shutdown, .pending .silent] :=
  ⟨_, rfl, (silence new_eq_newConn stands_newConn
    (rfl : connectEstablished (Masks.initDefaultEvent .LT) (.start newConn .new) [] = .ok _)
    (by decide +kernel)).1⟩

/-- Reading that is started in the callback of the end is watched for, and the assert of
`Channel::remove` fails; and a connection that is closed while reading is stopped is put back into
the interest set. -/
theorem not_silence :
    ∃ s, connectEstablished (Masks.initDefaultEvent .LT) (.start newConn .new) [] = .ok s ∧
      Outcome (run (step (Masks.initDefaultEvent .LT)) s [.handleEvent EPOLLIN { Env.silent with
        reads := [.data []], onConnection := [.startRead] }])
        (fun t ↦ ¬SilentWhenClosed t ∧
          Outcome (connectDestroyed (Masks.initDefaultEvent .LT) t .silent) (fun _ ↦ False)
            (· = .assertion .channelRemove)) (fun _ ↦ False) ∧
      Outcome (run (step (Masks.initDefaultEvent .LT)) s
        [.user .stopRead, .user .forceClose, .pending .silent])
        (fun t ↦ ¬SilentWhenClosed t) (fun _ ↦ False) :=
  ⟨_, rfl, by decide +kernel, by decide +kernel⟩

end TcpConnection

end Twnl
