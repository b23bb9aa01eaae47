import Twnl.EventLoopThread.Basic

/-!
# Stopping the thread

The destructor's `quit` reaches the loop it is meant for, and is not forgotten, in the runs in which
the loop is called before `quit_` is set and outlives the reads of `loop_` and the call. Nothing in
the program sees to either: `loop` resets `quit_` after the pointer was handed out, and `threadFunc`
takes the pointer back, and destroys the loop, as soon as a callback has made `loop` return.
Each of the steps that break the condition lets the handshake fail (`handshake_iff`).
-/

namespace Twnl

namespace Spawned

/-- The thread is at a point at which `loop_` is set. -/
def pointed : Spawned → Bool
  | calling | looping | clearing => true
  | unborn | callback | destroying | finished => false

/-- `loop` has been called. -/
def entered : Spawned → Bool
  | looping | clearing | destroying | finished => true
  | unborn | callback | calling => false

end Spawned

namespace LoopState

variable {α : Type} {s s' : LoopState α} {i : Step α}

/-- What a step of a loop does to `quit_`, and where it leaves a loop that is outside. -/
theorem step_quit (hi : i ≠ .loop) (h : step s i = .ok s') :
    (s.quit = true → s'.quit = true) ∧ (s.phase = .outside → s'.phase = .outside) := by
  cases i with
  | loop => exact absurd rfl hi
  | test =>
    obtain ⟨hat, h⟩ := ite_eq_ok.mp h
    refine ⟨fun hquit ↦ ?_, fun hphase ↦ absurd (hat.1.symm.trans hphase) nofun⟩
    split at h <;> obtain rfl := Except.ok.inj h <;> exact hquit
  | pollReturns | doPendingFunctors | swap | destroyed =>
    obtain ⟨hat, h⟩ := ite_eq_ok.mp h
    obtain rfl := Except.ok.inj h
    exact ⟨id, fun hphase ↦ absurd (hat.1.symm.trans hphase) nofun⟩
  | call =>
    obtain ⟨-, h⟩ := ite_eq_ok.mp h
    split at h
    · obtain rfl := Except.ok.inj h
      exact ⟨id, id⟩
    · exact absurd h nofun
  | returns =>
    obtain ⟨⟨hat, -⟩, h⟩ := ite_eq_ok.mp h
    obtain rfl := Except.ok.inj h
    exact ⟨id, fun hphase ↦ absurd (hat.1.symm.trans hphase) nofun⟩
  | runInLoop thread f =>
    obtain ⟨-, h⟩ := ite_eq_ok.mp h
    split at h <;> obtain rfl := Except.ok.inj h <;> exact ⟨id, id⟩
  | queued thread =>
    obtain ⟨n, hn⟩ := queued_eq s thread
    obtain rfl := Except.ok.inj (ite_eq_ok.mp h).2
    rw [hn]
    exact ⟨id, id⟩
  | wakeup thread =>
    obtain ⟨n, hn⟩ := wakeup_eq s
    obtain rfl := Except.ok.inj (ite_eq_ok.mp h).2
    rw [hn]
    exact ⟨id, id⟩
  | handleRead | queueInLoop _ _ =>
    obtain rfl := Except.ok.inj (ite_eq_ok.mp h).2
    exact ⟨id, id⟩
  | quit thread =>
    obtain rfl := Except.ok.inj (ite_eq_ok.mp h).2
    exact ⟨fun _ ↦ rfl, id⟩

/-- A call of `loop`. -/
theorem step_loop (hfree : s.Free s.threadId) (hlooping : s.looping = false) :
    step s .loop = .ok { s with looping := true, quit := false, phase := .test } := by
  rw [step, if_pos hfree, check_pos hlooping]
  rfl

/-- The faults of a loop are those of its assert. -/
theorem step_error {e : Fault} (h : step s i = .error e) :
    e = .impossible ∨ e = .assertion .loop := by
  have hguard {p : Prop} [Decidable p] {t : LoopState α}
      (h : (if p then .ok t else .error .impossible : Except Fault _) = .error e) :
      e = .impossible := by
    split at h
    · exact absurd h nofun
    · exact (Except.error.inj h).symm
  cases i with
  | loop =>
    rw [step] at h
    split at h
    · rcases bind_eq_error.mp h with h | ⟨_, -, h⟩
      · exact Or.inr (check_eq_error.mp h).2
      · exact absurd h nofun
    · exact Or.inl (Except.error.inj h).symm
  | test | runInLoop _ _ =>
    rw [step] at h
    split at h
    · split at h <;> exact absurd h nofun
    · exact Or.inl (Except.error.inj h).symm
  | call =>
    rw [step] at h
    split at h
    · split at h
      · exact absurd h nofun
      · exact Or.inl (Except.error.inj h).symm
    · exact Or.inl (Except.error.inj h).symm
  | pollReturns | handleRead | doPendingFunctors | swap | returns | destroyed | queueInLoop _ _
  | queued _ | wakeup _ | quit _ => exact Or.inl (hguard h)

end LoopState

namespace EventLoopThread

open Machine

variable {α : Type} {m t : EventLoopThread α} {i : Step α}

/-! ## The property and the condition -/

/-- Once the owner's `quit` has completed, the spawned thread is not in `poll`, nor about to enter
it, with `quit_` false. -/
def Remembers (m : EventLoopThread α) : Prop :=
  m.owner = .joining true → m.spawned = .looping →
    m.eventLoop.phase = .test ∨ m.eventLoop.phase = .poll → m.eventLoop.quit = true

/-- The step does not call `quit` on a loop that is no more, and the request is not forgotten. -/
def Handshake (m : EventLoopThread α) (i : Step α) : Prop :=
  Outcome (step m i) Remembers fun e ↦ e ≠ .nullPointer ∧ e ≠ .useAfterFree

/-- `quit_` is set once `loop` has been called, `loop_` is not set to null between the two reads,
and the loop is not destroyed during the call of `quit`. -/
def Careful (m : EventLoopThread α) : Step α → Prop
  | .stores => m.spawned ≠ .calling
  | .clears => m.owner ≠ .following
  | .destroys => m.owner ≠ .quitting ∧ m.owner ≠ .waking
  | .startLoop | .awaits | .returns | .destructs | .tests | .follows | .wakes | .joins | .publishes
  | .loops _ => True

instance (m : EventLoopThread α) : DecidablePred (Careful m)
  | .stores | .clears => inferInstanceAs (Decidable (_ ≠ _))
  | .destroys => inferInstanceAs (Decidable (_ ∧ _))
  | .startLoop | .awaits | .returns | .destructs | .tests | .follows | .wakes | .joins | .publishes
  | .loops _ => inferInstanceAs (Decidable True)

/-! ## The invariant -/

/-- `quit_` is set for good. -/
def Asked (m : EventLoopThread α) : Prop :=
  m.spawned.entered = true ∧ (m.spawned = .looping → m.eventLoop.quit = true)

/-- What the owner can rely on, where it is. -/
def Relies (m : EventLoopThread α) : Prop :=
  match m.owner with
  | .following => m.spawned.pointed = true
  | .quitting => m.spawned.pointed = true ∨ m.spawned = .destroying
  | .waking => m.Asked ∧ m.spawned ≠ .finished
  | .joining quit => quit = true → m.Asked
  | .idle | .waiting | .returning | .running _ | .testing | .gone => True

structure Safe (m : EventLoopThread α) : Prop where
  unborn : m.started = false → m.spawned = .unborn
  loop : m.loop = m.spawned.pointed
  relies : m.Relies
  placed : m.eventLoop.Placed
  outside : m.spawned.entered = false → m.eventLoop.phase = .outside
  free : m.spawned = .calling → m.eventLoop.Free m.eventLoop.threadId

theorem safe_new (threadId : ℕ) : Safe (new threadId : EventLoopThread α) :=
  ⟨fun _ ↦ rfl, rfl, trivial, LoopState.placed_start threadId, fun _ ↦ rfl, nofun⟩

theorem Safe.remembers (h : Safe m) : Remembers m := by
  intro howner hlooping _
  have hrelies := h.relies
  rw [Relies, howner] at hrelies
  exact (hrelies rfl).2 hlooping

/-- The owner goes on, and leaves the rest as it is. -/
theorem Safe.withOwner (h : Safe m) {owner : Owner} (hrelies : Relies { m with owner := owner }) :
    Safe { m with owner := owner } :=
  ⟨h.unborn, h.loop, hrelies, h.placed, h.outside, h.free⟩

/-- The spawned thread goes on, and leaves the owner where it is. -/
theorem Relies.move (h : m.Relies) (howner : t.owner = m.owner)
    (hfollowing : m.owner = .following → m.spawned.pointed = true → t.spawned.pointed = true)
    (hquitting : m.owner = .quitting → m.spawned.pointed = true ∨ m.spawned = .destroying →
      t.spawned.pointed = true ∨ t.spawned = .destroying)
    (hwaking : m.owner = .waking → t.spawned ≠ .finished) (hasked : m.Asked → t.Asked) :
    t.Relies := by
  rw [Relies] at h ⊢
  rw [howner]
  cases hphase : m.owner with
  | following =>
    rw [hphase] at h
    exact hfollowing hphase h
  | quitting =>
    rw [hphase] at h
    exact hquitting hphase h
  | waking =>
    rw [hphase] at h
    exact ⟨hasked h.1, hwaking hphase⟩
  | joining quit =>
    rw [hphase] at h
    exact fun hquit ↦ hasked (h hquit)
  | idle | waiting | returning | running _ | testing | gone => trivial

/-! ## One step -/

theorem Safe.loops (h : Safe m) {j : LoopState.Step α} (ht : m.loops j = .ok t) : Safe t := by
  have hcalled {j : LoopState.Step α} (hj : Called m.eventLoop j) : j ≠ .loop := by
    rintro rfl
    exact hj
  rw [EventLoopThread.loops.eq_def] at ht
  split at ht
  · rename_i hspawned
    obtain ⟨hj, ht⟩ := ite_eq_ok.mp ht
    obtain ⟨eventLoop, heventLoop, ht⟩ := bind_eq_ok.mp ht
    obtain rfl := Except.ok.inj ht
    have houtside := (LoopState.step_quit (hcalled hj) heventLoop).2
    refine ⟨h.unborn, h.loop, ?_, h.placed.step heventLoop, fun hentered ↦ ?_, fun hcalling ↦ ?_⟩
    · refine h.relies.move rfl (fun _ hpointed ↦ hpointed) (fun _ hleft ↦ hleft) (fun _ ↦ ?_)
        fun hasked ↦ ⟨hasked.1, fun hlooping ↦ absurd (hspawned.symm.trans hlooping) nofun⟩
      exact fun hfinished ↦ absurd (hspawned.symm.trans hfinished) nofun
    · exact houtside (h.outside hentered)
    · exact absurd (hspawned.symm.trans hcalling) nofun
  · rename_i hspawned
    split at ht
    · obtain ⟨eventLoop, heventLoop, ht⟩ := bind_eq_ok.mp ht
      obtain rfl := Except.ok.inj ht
      have hborn : m.spawned ≠ .unborn := by rw [hspawned]; exact nofun
      have hloop : m.loop = true := by
        rw [h.loop, hspawned]
        rfl
      refine ⟨fun hnot ↦ absurd (h.unborn hnot) hborn, hloop, ?_,
        h.placed.step heventLoop, nofun, nofun⟩
      -- nothing has been asked of a loop that was not called
      refine h.relies.move rfl (fun _ _ ↦ rfl) (fun _ _ ↦ Or.inl rfl) (fun _ ↦ nofun)
        fun hasked ↦ ?_
      rw [Asked, hspawned] at hasked
      exact absurd hasked.1 nofun
    · exact absurd ht nofun
  · rename_i hspawned
    obtain ⟨hj, ht⟩ := ite_eq_ok.mp ht
    obtain ⟨eventLoop, heventLoop, ht⟩ := bind_eq_ok.mp ht
    obtain rfl := Except.ok.inj ht
    have hborn : m.spawned ≠ .unborn := by rw [hspawned]; exact nofun
    have hloop : m.loop = true := by
      rw [h.loop, hspawned]
      rfl
    have hquit := (LoopState.step_quit (hcalled hj) heventLoop).1
    have hplaced := h.placed.step heventLoop
    -- it goes on or has returned
    split
    · refine ⟨fun hnot ↦ absurd (h.unborn hnot) hborn, hloop, ?_, hplaced, nofun, nofun⟩
      exact h.relies.move rfl (fun _ _ ↦ rfl) (fun _ _ ↦ Or.inl rfl) (fun _ ↦ nofun)
        fun _ ↦ ⟨rfl, nofun⟩
    · refine ⟨fun hnot ↦ absurd (h.unborn hnot) hborn, hloop, ?_, hplaced, nofun, nofun⟩
      exact h.relies.move rfl (fun _ _ ↦ rfl) (fun _ _ ↦ Or.inl rfl) (fun _ ↦ nofun)
        fun hasked ↦ ⟨rfl, fun _ ↦ hquit (hasked.2 hspawned)⟩
  all_goals exact absurd ht nofun

/-- The owner starts the thread. -/
theorem Safe.startLoop (h : Safe m) (ht : (do
      check (m.started = false) .startLoop
      Except.ok { m with started := true, owner := .waiting, spawned := .callback }) = .ok t) :
    Safe t := by
  obtain ⟨_, hstarted, ht⟩ := bind_eq_ok.mp ht
  have hunborn := h.unborn (check_eq_ok.mp hstarted)
  obtain rfl := Except.ok.inj ht
  refine ⟨nofun, ?_, trivial, h.placed, fun _ ↦ h.outside ?_, nofun⟩
  · rw [h.loop, hunborn]
    rfl
  · rw [hunborn]
    rfl

/-- The step lemma. -/
theorem Safe.step (h : Safe m) (hi : Careful m i) (ht : EventLoopThread.step m i = .ok t) :
    Safe t := by
  cases i with
  | startLoop =>
    rw [EventLoopThread.step] at ht
    split at ht
    · exact h.startLoop ht
    · exact h.startLoop ht
    · exact absurd ht nofun
  | awaits =>
    obtain rfl := Except.ok.inj (ite_eq_ok.mp ht).2
    exact h.withOwner trivial
  | returns =>
    obtain rfl := Except.ok.inj (ite_eq_ok.mp ht).2
    exact h.withOwner trivial
  | destructs =>
    rw [EventLoopThread.step] at ht
    split at ht
    · obtain rfl := Except.ok.inj ht
      apply h.withOwner
      cases hstarted : m.started <;> trivial
    · obtain rfl := Except.ok.inj ht
      apply h.withOwner
      cases hstarted : m.started <;> trivial
    · exact absurd ht nofun
  | tests =>
    obtain rfl := Except.ok.inj (ite_eq_ok.mp ht).2
    apply h.withOwner
    cases hloop : m.loop with
    | true => exact h.loop.symm.trans hloop
    | false => exact nofun
  | follows =>
    have ht := (ite_eq_ok.mp ht).2
    split at ht
    · rename_i hloop
      obtain rfl := Except.ok.inj ht
      exact h.withOwner (Or.inl (h.loop.symm.trans hloop))
    · exact absurd ht nofun
  | stores =>
    obtain ⟨howner, ht⟩ := ite_eq_ok.mp ht
    split at ht
    · exact absurd ht nofun
    · rename_i hfinished
      obtain rfl := Except.ok.inj ht
      have hrelies := h.relies
      rw [Relies, howner] at hrelies
      refine ⟨h.unborn, h.loop, ⟨⟨?_, fun _ ↦ rfl⟩, hfinished⟩,
        ⟨h.placed.looping, h.placed.calling, h.placed.batch⟩, h.outside, h.free⟩
      -- the loop has been called
      change m.spawned ≠ .calling at hi
      change m.spawned.entered = true
      rcases hrelies with hpointed | hdestroying
      · cases hspawned : m.spawned with
        | calling => exact absurd hspawned hi
        | looping | clearing | destroying | finished => rfl
        | unborn | callback =>
          rw [hspawned] at hpointed
          exact absurd hpointed nofun
      · rw [hdestroying]
        rfl
  | wakes =>
    obtain ⟨howner, ht⟩ := ite_eq_ok.mp ht
    split at ht
    · exact absurd ht nofun
    · obtain rfl := Except.ok.inj ht
      have hrelies := h.relies
      rw [Relies, howner] at hrelies
      obtain ⟨n, hn⟩ := LoopState.wakeup_eq m.eventLoop
      rw [hn]
      exact ⟨h.unborn, h.loop, fun _ ↦ hrelies.1,
        ⟨h.placed.looping, h.placed.calling, h.placed.batch⟩, h.outside, h.free⟩
  | joins =>
    rw [EventLoopThread.step] at ht
    split at ht
    · obtain rfl := Except.ok.inj (ite_eq_ok.mp ht).2
      exact h.withOwner trivial
    · exact absurd ht nofun
  | publishes =>
    obtain ⟨⟨hspawned, hfree⟩, ht⟩ := ite_eq_ok.mp ht
    obtain rfl := Except.ok.inj ht
    have hborn : m.spawned ≠ .unborn := by rw [hspawned]; exact nofun
    refine ⟨fun hnot ↦ absurd (h.unborn hnot) hborn, rfl, ?_, h.placed,
      fun _ ↦ h.outside (by rw [hspawned]; rfl), fun _ ↦ hfree⟩
    refine h.relies.move rfl (fun _ _ ↦ rfl) (fun _ _ ↦ Or.inl rfl) (fun _ ↦ nofun) fun hasked ↦ ?_
    rw [Asked, hspawned] at hasked
    exact absurd hasked.1 nofun
  | loops j => exact h.loops ht
  | clears =>
    obtain ⟨hspawned, ht⟩ := ite_eq_ok.mp ht
    obtain rfl := Except.ok.inj ht
    have hborn : m.spawned ≠ .unborn := by rw [hspawned]; exact nofun
    refine ⟨fun hnot ↦ absurd (h.unborn hnot) hborn, rfl, ?_, h.placed, nofun, nofun⟩
    exact h.relies.move rfl (fun howner ↦ absurd howner hi) (fun _ _ ↦ Or.inr rfl) (fun _ ↦ nofun)
      fun _ ↦ ⟨rfl, nofun⟩
  | destroys =>
    obtain ⟨hspawned, ht⟩ := ite_eq_ok.mp ht
    obtain ⟨-, -, ht⟩ := bind_eq_ok.mp ht
    obtain rfl := Except.ok.inj ht
    have hborn : m.spawned ≠ .unborn := by rw [hspawned]; exact nofun
    refine ⟨fun hnot ↦ absurd (h.unborn hnot) hborn,
      h.loop.trans (by rw [hspawned]; rfl), ?_, h.placed, nofun, nofun⟩
    refine h.relies.move rfl (fun _ hpointed ↦ ?_) (fun howner ↦ absurd howner hi.1)
      (fun howner ↦ absurd howner hi.2) fun _ ↦ ⟨rfl, nofun⟩
    rw [hspawned] at hpointed
    exact absurd hpointed nofun

/-- The faults of asserts, and of steps that are not to be taken. -/
def Asserted (e : Fault) : Prop := e = .impossible ∨ ∃ site, e = .assertion site

theorem asserted_ite {p : Prop} [Decidable p] {x : Except Fault (EventLoopThread α)} {e : Fault}
    (he : (if p then x else .error .impossible) = .error e)
    (hx : p → x = .error e → Asserted e) : Asserted e := by
  split at he
  · rename_i hp
    exact hx hp he
  · exact Or.inl (Except.error.inj he).symm

theorem asserted_check {p : Prop} [Decidable p] {site : Site} {e : Fault}
    (he : (do check p site; Except.ok t) = .error e) : Asserted e := by
  rcases bind_eq_error.mp he with he | ⟨_, -, he⟩
  · exact Or.inr ⟨site, (check_eq_error.mp he).2⟩
  · exact absurd he nofun

theorem asserted_loop {j : LoopState.Step α} {f : LoopState α → EventLoopThread α} {e : Fault}
    (he : (do let l ← m.eventLoop.step j; Except.ok (f l)) = .error e) : Asserted e := by
  rcases bind_eq_error.mp he with he | ⟨_, -, he⟩
  · exact (LoopState.step_error he).imp_right fun h ↦ ⟨.loop, h⟩
  · exact absurd he nofun

theorem asserted_loops {j : LoopState.Step α} {e : Fault} (he : m.loops j = .error e) :
    Asserted e := by
  rw [EventLoopThread.loops.eq_def] at he
  split at he
  · exact asserted_ite he fun _ he ↦ asserted_loop he
  · split at he
    · exact asserted_loop he
    · exact Or.inl (Except.error.inj he).symm
  · exact asserted_ite he fun _ he ↦ asserted_loop he
  all_goals exact Or.inl (Except.error.inj he).symm

/-- The owner follows no pointer that is null, and uses no loop that is destroyed. -/
theorem Safe.asserted (h : Safe m) {e : Fault} (he : EventLoopThread.step m i = .error e) :
    Asserted e := by
  have hrelies := h.relies
  rw [Relies] at hrelies
  cases i with
  | startLoop =>
    rw [EventLoopThread.step] at he
    split at he
    · exact asserted_check he
    · exact asserted_check he
    · exact Or.inl (Except.error.inj he).symm
  | follows =>
    refine asserted_ite he fun howner he ↦ ?_
    rw [howner] at hrelies
    rw [if_pos (h.loop.trans hrelies)] at he
    exact absurd he nofun
  | stores =>
    refine asserted_ite he fun howner he ↦ ?_
    rw [howner] at hrelies
    have hfinished : m.spawned ≠ .finished := by
      intro hfinished
      rw [hfinished] at hrelies
      exact hrelies.elim nofun nofun
    rw [if_neg hfinished] at he
    exact absurd he nofun
  | wakes =>
    refine asserted_ite he fun howner he ↦ ?_
    rw [howner] at hrelies
    rw [if_neg hrelies.2] at he
    exact absurd he nofun
  | destructs =>
    rw [EventLoopThread.step] at he
    split at he
    · exact absurd he nofun
    · exact absurd he nofun
    · exact Or.inl (Except.error.inj he).symm
  | joins =>
    rw [EventLoopThread.step] at he
    split at he
    · exact asserted_ite he fun _ he ↦ absurd he nofun
    · exact Or.inl (Except.error.inj he).symm
  | loops j => exact asserted_loops he
  | destroys => exact asserted_ite he fun _ he ↦ asserted_check he
  | awaits | returns | tests | publishes | clears =>
    exact asserted_ite he fun _ he ↦ absurd he nofun

theorem Safe.handshake (h : Safe m) (hi : Careful m i) : Handshake m i := by
  refine outcome_of (fun t ht ↦ (h.step hi ht).remembers) fun e he ↦ ?_
  rcases h.asserted he with rfl | ⟨site, rfl⟩
  · exact ⟨nofun, nofun⟩
  · exact ⟨nofun, nofun⟩

/-! ## What a careless step leads to -/

/-- A step at which the owner uses what is no more. -/
theorem fails_of_error {e : Fault} (hi : Careful t i) (he : step t i = .error e)
    (hbad : e = .nullPointer ∨ e = .useAfterFree) :
    ∃ more, Along step Careful t more ∧ ¬Along step Handshake t more := by
  refine ⟨[i], along_cons.mpr ⟨hi, fun _ _ ↦ along_nil⟩, fun h ↦ ?_⟩
  have hhandshake := (along_cons.mp h).1
  rw [Handshake, he] at hhandshake
  exact hbad.elim hhandshake.1 hhandshake.2

/-- A loop that was asked to quit and is not called yet is called, and forgets it. -/
theorem Safe.forgets (h : Safe m) (hspawned : m.spawned = .calling) (n : ℕ) :
    ∃ v, EventLoopThread.step { m with
        eventLoop := { m.eventLoop with quit := true, wakeups := n }
        owner := .joining true } (.loops .loop) = .ok v ∧ ¬Remembers v := by
  have hfree := h.free hspawned
  have houtside : m.eventLoop.phase = .outside := h.outside (by rw [hspawned]; rfl)
  have hlooping : m.eventLoop.looping = false := by
    rw [h.placed.looping, houtside]
    rfl
  refine ⟨{ m with
    eventLoop := { m.eventLoop with wakeups := n, looping := true, quit := false, phase := .test }
    owner := .joining true, spawned := .looping }, ?_, fun hremembers ↦ ?_⟩
  · have hcall := LoopState.step_loop
      (s := { m.eventLoop with quit := true, wakeups := n }) hfree hlooping
    rw [EventLoopThread.step, EventLoopThread.loops.eq_def, hspawned]
    change (LoopState.step _ _ >>= _) = _
    rw [hcall]
    rfl
  · exact absurd (hremembers rfl rfl (Or.inl rfl)) nofun

/-- The threads go on, carefully, and the handshake fails. -/
theorem Safe.fails (h : Safe m) (hi : ¬Careful m i) (ht : EventLoopThread.step m i = .ok t) :
    ∃ more, Along EventLoopThread.step Careful t more ∧
      ¬Along EventLoopThread.step Handshake t more := by
  cases i with
  | stores =>
    have hspawned : m.spawned = .calling := Classical.not_not.mp hi
    have hfinished : m.spawned ≠ .finished := by
      rw [hspawned]
      exact nofun
    have ht := (ite_eq_ok.mp ht).2
    rw [if_neg hfinished] at ht
    obtain rfl := Except.ok.inj ht
    obtain ⟨n, hn⟩ := LoopState.wakeup_eq { m.eventLoop with quit := true }
    obtain ⟨v, hv, hforgotten⟩ := h.forgets hspawned n
    have hwakes : EventLoopThread.step { m with
        eventLoop := { m.eventLoop with quit := true }, owner := .waking } .wakes = .ok { m with
        eventLoop := { m.eventLoop with quit := true, wakeups := n }, owner := .joining true } := by
      rw [EventLoopThread.step, if_pos rfl, if_neg hfinished, hn]
    refine ⟨[.wakes, .loops .loop], ?_, fun hrun ↦ ?_⟩
    · exact along_cons.mpr ⟨trivial, fun _ _ ↦ along_cons.mpr ⟨trivial, fun _ _ ↦ along_nil⟩⟩
    · have hloops := (along_cons.mp ((along_cons.mp hrun).2 _ hwakes)).1
      rw [Handshake, hv] at hloops
      exact hforgotten hloops
  | clears =>
    have howner : m.owner = .following := Classical.not_not.mp hi
    obtain rfl := Except.ok.inj (ite_eq_ok.mp ht).2
    refine fails_of_error (i := .follows) trivial ?_ (Or.inl rfl)
    exact (if_pos howner).trans (if_neg nofun)
  | destroys =>
    obtain ⟨_, -, ht⟩ := bind_eq_ok.mp (ite_eq_ok.mp ht).2
    obtain rfl := Except.ok.inj ht
    rcases Classical.not_and_iff_not_or_not.mp hi with howner | howner
    · replace howner : m.owner = .quitting := Classical.not_not.mp howner
      refine fails_of_error (i := .stores) nofun ?_ (Or.inr rfl)
      exact (if_pos howner).trans (if_pos rfl)
    · replace howner : m.owner = .waking := Classical.not_not.mp howner
      refine fails_of_error (i := .wakes) trivial ?_ (Or.inr rfl)
      exact (if_pos howner).trans (if_pos rfl)
  | startLoop | awaits | returns | destructs | tests | follows | wakes | joins | publishes
  | loops _ => exact absurd trivial hi

/-! ## Runs -/

/-- **The handshake.** Whatever the two threads do, `quit` is called on no loop that is destroyed
and is not forgotten by the one it is called on, as long as it is called after `loop` and the loop
outlives the reads of `loop_` and the call; and after any step that breaks this the threads can go
on so that it is. -/
theorem handshake_iff (threadId : ℕ) :
    (∀ steps : List (Step α), Along step Careful (new threadId) steps →
      Along step Handshake (new threadId) steps) ∧
    ∀ (steps : List (Step α)) (m t : EventLoopThread α) (i : Step α),
      Along step Careful (new threadId) steps → run step (new threadId) steps = .ok m →
      step m i = .ok t → ¬Careful m i →
      ∃ more, Along step Careful t more ∧ ¬Along step Handshake t more := by
  have hpres (m : EventLoopThread α) (i : Step α) (t : EventLoopThread α) (h : Safe m)
      (hi : Careful m i) (ht : step m i = .ok t) : Safe t := h.step hi ht
  constructor
  · intro steps hcareful
    exact hcareful.guarantee hpres (fun _ _ h hi ↦ h.handshake hi) (safe_new threadId)
  · intro steps m t i hcareful hrun ht hi
    exact (hcareful.run_inv hpres (safe_new threadId) hrun).fails hi ht

/-- The loop is called, asked to quit, and found so at its test; the owner joins the thread. -/
theorem handshake_joined :
    Outcome (run step (new 1 : EventLoopThread Unit) [.startLoop, .publishes, .loops .loop, .awaits,
        .returns, .destructs, .tests, .follows, .stores, .wakes, .loops .test, .clears, .destroys,
        .joins]) (fun m ↦ m.owner = .gone) (fun _ ↦ False) ∧
      Along step Handshake (new 1 : EventLoopThread Unit) [.startLoop, .publishes, .loops .loop,
        .awaits, .returns, .destructs, .tests, .follows, .stores, .wakes, .loops .test, .clears,
        .destroys, .joins] :=
  ⟨by decide, (handshake_iff 1).1 _ (by decide)⟩

/-- The destructor comes before the call of `loop`, and the loop waits in `poll` although it was
asked to quit; a callback quits, and `loop_` is null when it is read again, or the loop is destroyed
when `quit_` is set. -/
theorem not_handshake :
    (∃ m, run step (new 1 : EventLoopThread Unit) [.startLoop, .publishes, .awaits, .returns,
        .destructs, .tests, .follows, .stores, .wakes, .loops .loop, .loops .test] = .ok m ∧
      m.owner = .joining true ∧ m.spawned = .looping ∧ m.eventLoop.phase = .poll ∧
        m.eventLoop.quit = false) ∧
    run step (new 1 : EventLoopThread Unit) [.startLoop, .publishes, .loops .loop, .awaits,
        .returns, .loops .test, .loops .pollReturns, .loops (.quit 1), .loops .doPendingFunctors,
        .loops .swap, .loops .returns, .loops .destroyed, .loops .test, .destructs, .tests, .clears,
        .follows] = .error .nullPointer ∧
    run step (new 1 : EventLoopThread Unit) [.startLoop, .publishes, .loops .loop, .awaits,
        .returns, .loops .test, .loops .pollReturns, .loops (.quit 1), .loops .doPendingFunctors,
        .loops .swap, .loops .returns, .loops .destroyed, .loops .test, .destructs, .tests,
        .follows, .clears, .destroys, .stores] = .error .useAfterFree :=
  ⟨⟨_, rfl, rfl, rfl, rfl, rfl⟩, rfl, rfl⟩

end EventLoopThread

end Twnl
