import Twnl.EventLoop.Queue

/-!
# No sleeping with work queued

A loop that blocks in `poll` while functors are queued must have been told of them. In `queueInLoop`
the loop's own thread leaves that out unless it is executing functors: whatever its handlers queue
is taken in the same iteration. The functors that it queues when it is *not in* `loop`, before the
first iteration or after the last, are left out as well, and those no iteration is about to take;
and so are those that it queues while the batch is *destroyed*, with the flag reset already.

The loop is never asleep in the runs in which `loop` is called only when nothing is queued or the
wake-up descriptor was written since, and in which no destructor of a batch queues anything that the
loop is not told of anyway (`noSleep_of_prepared`).
-/

namespace Twnl

namespace LoopState

open Machine

variable {α : Type} {s s' : LoopState α} {i : Step α} {steps : List (Step α)}

/-- The wake-up descriptor can be read, or another thread that has pushed a functor is about to
write it. -/
def Roused (s : LoopState α) : Prop :=
  0 < s.wakeups ∨ ∃ thread ∈ s.queueing, thread ≠ s.threadId

/-- The loop does not sleep with work queued. -/
def NoSleep (s : LoopState α) : Prop := s.phase = .poll → s.pendingFunctors ≠ [] → s.Roused

/-- If the step calls `loop`, no functor is queued that the loop was not told of. If it is the end
of a `queueInLoop` that the loop's own thread has called while the batch is destroyed, the loop is
about to leave or has been told. -/
def Prepared (s : LoopState α) : Step α → Prop
  | .loop => s.pendingFunctors ≠ [] → s.Roused
  | .queued thread =>
    thread = s.threadId → s.phase = .destruction → s.quit = true ∨ s.Roused
  | .test | .pollReturns | .handleRead | .doPendingFunctors | .swap | .call | .returns | .destroyed
  | .queueInLoop _ _ | .runInLoop _ _ | .wakeup _ | .quit _ => True

instance : DecidablePred (@Roused α) := fun _ ↦
  inferInstanceAs (Decidable (_ ∨ ∃ thread ∈ _, _))

instance [DecidableEq α] : DecidablePred (@NoSleep α) := fun _ ↦
  inferInstanceAs (Decidable (_ → _ → _))

instance [DecidableEq α] (s : LoopState α) : DecidablePred s.Prepared
  | .loop => inferInstanceAs (Decidable (_ → _))
  | .queued _ => inferInstanceAs (Decidable (_ → _ → _))
  | .test | .pollReturns | .handleRead | .doPendingFunctors | .swap | .call | .returns | .destroyed
  | .queueInLoop _ _ | .runInLoop _ _ | .wakeup _ | .quit _ => inferInstanceAs (Decidable True)

/-- The phases that lead to `poll` without an exchange in between. -/
def BeforePoll : LoopPhase → Prop
  | .test | .poll | .functors | .destruction => True
  | .outside | .dispatch | .exchange => False

/-- The flag is set, and the loop is to test it before it polls. -/
def Leaves (s : LoopState α) : Prop := s.quit = true ∧ s.phase ≠ .poll

/-- The wake-up descriptor can be read, or a thread is in `queueInLoop`. -/
def Told (s : LoopState α) : Prop := 0 < s.wakeups ∨ s.queueing ≠ []

/-- The invariant: what is queued on the way to `poll` the loop is or will be told of, unless it is
about to leave. -/
structure Awake (s : LoopState α) : Prop where
  placed : s.Placed
  own : s.threadId ∈ s.queueing → s.inUserCode = true
  told : BeforePoll s.phase → s.pendingFunctors ≠ [] → s.Leaves ∨ s.Told

theorem awake_start (threadId : ℕ) : (start threadId : LoopState α).Awake :=
  ⟨placed_start threadId, nofun, fun _ hne ↦ absurd rfl hne⟩

theorem wakeup_pos (s : LoopState α) : 0 < s.wakeup.wakeups := by
  rw [wakeup]
  split
  · exact Nat.succ_pos _
  · rename_i hfull
    exact Nat.lt_of_lt_of_le (by decide) (Nat.le_of_not_lt hfull)

theorem Roused.told (h : s.Roused) : s.Told :=
  h.imp_right fun ⟨_, hmem, _⟩ ↦ List.ne_nil_of_mem hmem

/-- In `poll` the thread that is in `queueInLoop` is another. -/
theorem Awake.noSleep (hs : s.Awake) : s.NoSleep := by
  intro hpoll hne
  rcases hs.told (hpoll ▸ trivial) hne with ⟨-, hleaves⟩ | hpos | hqueueing
  · exact absurd hpoll hleaves
  · exact Or.inl hpos
  · obtain ⟨thread, hmem⟩ := List.exists_mem_of_ne_nil _ hqueueing
    refine Or.inr ⟨thread, hmem, ?_⟩
    rintro rfl
    have huser := hs.own hmem
    rw [inUserCode, hpoll] at huser
    exact absurd huser nofun

theorem le_wakeup (s : LoopState α) : s.wakeups ≤ s.wakeup.wakeups := by
  rw [wakeup]
  split
  · exact Nat.le_succ _
  · exact Nat.le_refl _

theorem le_queued (s : LoopState α) (thread : ℕ) : s.wakeups ≤ (s.queued thread).wakeups := by
  rw [queued]
  split
  · exact le_wakeup { s with queueing := s.queueing.erase thread }
  · exact Nat.le_refl _

/-- The end of `queueInLoop`: it writes the descriptor, or the loop's own thread is where it need
not, or it is where it would have to and does not. -/
theorem queued_cases (hs : s.Awake) {thread : ℕ} (hmem : thread ∈ s.queueing) :
    0 < (s.queued thread).wakeups ∨ ¬BeforePoll s.phase ∨
      thread = s.threadId ∧ s.phase = .destruction := by
  rw [queued]
  split
  · exact Or.inl (wakeup_pos _)
  · rename_i hquiet
    right
    obtain ⟨hown, hcalling⟩ := not_or.mp hquiet
    rw [Classical.not_not] at hown
    have huser := hs.own (hown ▸ hmem)
    rw [hs.placed.calling] at hcalling
    rw [inUserCode] at huser
    cases hphase : s.phase with
    | outside | dispatch | exchange => exact Or.inl id
    | destruction => exact Or.inr ⟨hown, rfl⟩
    -- the loop's own thread is in no user code there
    | test | poll =>
      rw [hphase] at huser
      exact absurd huser Bool.false_ne_true
    | functors =>
      rw [hphase] at hcalling
      exact absurd rfl hcalling

/-- The loop is told of what a thread has pushed when it leaves `queueInLoop`. -/
theorem Awake.queued (hs : s.Awake) {thread : ℕ} (hmem : thread ∈ s.queueing)
    (hi : s.Prepared (.queued thread)) (hphase : BeforePoll s.phase) :
    s.Leaves ∨ (s.queued thread).Told := by
  rcases queued_cases hs hmem with hpos | hquiet | ⟨hown, hdestruction⟩
  · exact Or.inr (Or.inl hpos)
  · exact absurd hphase hquiet
  · rcases hi hown hdestruction with hquit | hpos | ⟨other, hother, hne⟩
    · refine Or.inl ⟨hquit, ?_⟩
      rw [hdestruction]
      exact LoopPhase.noConfusion
    · exact Or.inr (Or.inl (Nat.lt_of_lt_of_le hpos (le_queued s thread)))
    · -- the other thread is still to write the descriptor
      obtain ⟨n, hn⟩ := queued_eq s thread
      rw [hn]
      have hleft := (List.mem_erase_of_ne (hown ▸ hne)).mpr hother
      exact Or.inr (Or.inr (List.ne_nil_of_mem hleft))

/-- The loop's own thread, which is not in `queueInLoop`, moves on. -/
theorem awake_of_moves (hs' : s'.Placed) (hown : s.threadId ∉ s.queueing)
    (hthread : s'.threadId = s.threadId) (hqueueing : s'.queueing = s.queueing)
    (htold : BeforePoll s'.phase → s'.pendingFunctors ≠ [] → s'.Leaves ∨ s'.Told) :
    s'.Awake := by
  refine ⟨hs', fun hmem ↦ ?_, htold⟩
  rw [hthread, hqueueing] at hmem
  exact absurd hmem hown

/-- A push. -/
theorem Awake.push (hs : s.Awake) {thread : ℕ} (hfree : s.Free thread) (f : α) :
    (s.push thread f).Awake := by
  refine ⟨⟨hs.placed.looping, hs.placed.calling, hs.placed.batch⟩, fun hmem ↦ ?_, fun _ _ ↦ ?_⟩
  · rcases List.mem_append.mp hmem with hmem | hmem
    · exact hs.own hmem
    · exact hfree.2 (List.mem_singleton.mp hmem).symm
  · exact Or.inr (Or.inr (List.append_ne_nil_of_right_ne_nil _ (List.cons_ne_nil _ _)))

/-- The step lemma. -/
theorem Awake.step (hs : s.Awake) (hi : s.Prepared i) (h : LoopState.step s i = .ok s') :
    s'.Awake := by
  have hplaced := hs.placed.step h
  cases i with
  | loop =>
    obtain ⟨hfree, h⟩ := ite_eq_ok.mp h
    obtain ⟨-, -, h⟩ := bind_eq_ok.mp h
    obtain rfl := Except.ok.inj h
    exact awake_of_moves hplaced hfree.1 rfl rfl fun _ hne ↦ Or.inr (hi hne).told
  | test =>
    obtain ⟨hat, h⟩ := ite_eq_ok.mp h
    split at h
    · obtain rfl := Except.ok.inj h
      exact awake_of_moves hplaced hat.2 rfl rfl fun hphase ↦ hphase.elim
    · rename_i hnot
      obtain rfl := Except.ok.inj h
      refine awake_of_moves hplaced hat.2 rfl rfl fun _ hne ↦ Or.inr ?_
      -- the flag was found not set
      exact (hs.told (hat.1 ▸ trivial) hne).resolve_left fun hleaves ↦ hnot hleaves.1
  | pollReturns | doPendingFunctors =>
    -- up to the exchange nothing is asked of the loop
    obtain ⟨hat, h⟩ := ite_eq_ok.mp h
    obtain rfl := Except.ok.inj h
    exact awake_of_moves hplaced hat.2 rfl rfl fun hphase ↦ hphase.elim
  | handleRead =>
    obtain ⟨hat, h⟩ := ite_eq_ok.mp h
    obtain rfl := Except.ok.inj h
    -- the eventfd is read, but the loop does not poll before the exchange
    refine awake_of_moves hplaced hat.2 rfl rfl fun hphase ↦ ?_
    exact (show BeforePoll .dispatch from hat.1 ▸ hphase).elim
  | swap =>
    obtain ⟨hat, h⟩ := ite_eq_ok.mp h
    obtain rfl := Except.ok.inj h
    -- the exchange leaves nothing queued
    exact awake_of_moves hplaced hat.2 rfl rfl fun _ hne ↦ absurd rfl hne
  | call =>
    obtain ⟨hat, h⟩ := ite_eq_ok.mp h
    split at h
    · obtain rfl := Except.ok.inj h
      exact awake_of_moves hplaced hat.2 rfl rfl hs.told
    · exact absurd h nofun
  | returns =>
    obtain ⟨⟨hat, -⟩, h⟩ := ite_eq_ok.mp h
    obtain rfl := Except.ok.inj h
    refine awake_of_moves hplaced hat.2 rfl rfl fun _ hne ↦ ?_
    exact (hs.told (hat.1 ▸ trivial) hne).imp_left fun hleaves ↦ ⟨hleaves.1, LoopPhase.noConfusion⟩
  | destroyed =>
    obtain ⟨hat, h⟩ := ite_eq_ok.mp h
    obtain rfl := Except.ok.inj h
    refine awake_of_moves hplaced hat.2 rfl rfl fun _ hne ↦ ?_
    exact (hs.told (hat.1 ▸ trivial) hne).imp_left fun hleaves ↦ ⟨hleaves.1, LoopPhase.noConfusion⟩
  | queueInLoop thread f =>
    obtain ⟨hfree, h⟩ := ite_eq_ok.mp h
    obtain rfl := Except.ok.inj h
    exact hs.push hfree f
  | runInLoop thread f =>
    obtain ⟨hfree, h⟩ := ite_eq_ok.mp h
    split at h
    · obtain rfl := Except.ok.inj h
      exact hs
    · obtain rfl := Except.ok.inj h
      exact hs.push hfree f
  | queued thread =>
    obtain ⟨hmem, h⟩ := ite_eq_ok.mp h
    have htold := hs.queued hmem hi
    obtain ⟨n, hn⟩ := queued_eq s thread
    obtain rfl := Except.ok.inj h
    rw [hn] at hplaced htold ⊢
    exact ⟨hplaced, fun hmem ↦ hs.own (List.mem_of_mem_erase hmem), fun hphase _ ↦ htold hphase⟩
  | wakeup thread =>
    obtain ⟨-, h⟩ := ite_eq_ok.mp h
    have hpos := wakeup_pos s
    obtain ⟨n, hn⟩ := wakeup_eq s
    obtain rfl := Except.ok.inj h
    rw [hn] at hplaced hpos ⊢
    exact ⟨hplaced, hs.own, fun _ _ ↦ Or.inr (Or.inl hpos)⟩
  | quit thread =>
    obtain ⟨-, h⟩ := ite_eq_ok.mp h
    obtain rfl := Except.ok.inj h
    refine ⟨hplaced, hs.own, fun hphase hne ↦ ?_⟩
    exact (hs.told hphase hne).imp_left fun hleaves ↦ ⟨rfl, hleaves.2⟩

/-- **No sleeping with work queued.** In every state of a run in which `loop` is called only when
the loop was told of the functors that are queued, and in which its own thread queues a functor in
the destruction of a batch only when the loop leaves or was told anyway, a loop that is blocked in
`poll` with functors queued has been told, or is about to be by another thread. -/
theorem noSleep_of_prepared {threadId : ℕ} (hprepared : Along step Prepared (start threadId) steps)
    (hrun : Machine.run step (start threadId) steps = .ok s) : s.NoSleep := by
  have hpres : ∀ (s : LoopState α) i s', s.Awake → s.Prepared i → step s i = .ok s' → s'.Awake :=
    fun s i s' hs hi h ↦ hs.step hi h
  exact (Along.run_inv hpres hprepared (awake_start threadId) hrun).noSleep

/-- The loop's own thread queues a functor in a handler, another in that functor and a third when the
functor is destroyed, and blocks in `poll` when the descriptor can be read. -/
theorem noSleep_of_handler :
    ∃ s, Machine.run step (start 0)
        [.loop, .test, .pollReturns, .queueInLoop 0 'a', .queued 0, .doPendingFunctors, .swap,
          .call, .queueInLoop 0 'b', .queued 0, .returns, .queueInLoop 0 'c', .queued 0,
          .destroyed, .test] = .ok s ∧
      s.phase = .poll ∧ s.pendingFunctors = [(0, 'b'), (0, 'c')] ∧ s.NoSleep := by
  have hrun : Machine.run step (start 0)
      [.loop, .test, .pollReturns, .queueInLoop 0 'a', .queued 0, .doPendingFunctors, .swap, .call,
        .queueInLoop 0 'b', .queued 0, .returns, .queueInLoop 0 'c', .queued 0, .destroyed,
        .test] = .ok _ := rfl
  exact ⟨_, hrun, rfl, rfl, noSleep_of_prepared (by decide) hrun⟩

/-- A functor that the loop's own thread queues before it calls `loop`, one that it queues between
two calls, and one that it queues when the functor that was executed is destroyed. -/
theorem not_noSleep :
    (∃ s, Machine.run step (start 0) [.queueInLoop 0 'a', .queued 0, .loop, .test] = .ok s ∧
        ¬s.NoSleep) ∧
      (∃ s, Machine.run step (start 0)
          [.loop, .test, .pollReturns, .quit 0, .doPendingFunctors, .swap, .returns, .destroyed,
            .test, .queueInLoop 0 'a', .queued 0, .loop, .test] = .ok s ∧ ¬s.NoSleep) ∧
      ∃ s, Machine.run step (start 0)
          [.loop, .test, .queueInLoop 1 'a', .queued 1, .pollReturns, .handleRead,
            .doPendingFunctors, .swap, .call, .returns, .queueInLoop 0 'b', .queued 0, .destroyed,
            .test] = .ok s ∧ ¬s.NoSleep :=
  ⟨⟨_, rfl, by decide⟩, ⟨_, rfl, by decide⟩, ⟨_, rfl, by decide⟩⟩

end LoopState

end Twnl
