import Mathlib.Data.List.Infix
import Twnl.EventLoop.Wakeup

/-!
# Leaving a loop

`quit` sets a flag, and in any other thread than the loop's it writes the wake-up descriptor after
that. The loop tests the flag between two iterations. In between the two steps of `quit` the loop
may find the flag set, or go on and be told later; it is never blocked in `poll` with the flag set
and nobody about to wake it (`quit_rouses`).

From then on the loop goes through what is left of its iteration and leaves, without polling again.
It takes one more batch if it has not taken that of the iteration yet, and what is queued then is
all executed. What is queued when the batch was taken already is left in the queue
(`quit_drains`).
-/

namespace Twnl

/-- How many moves there are from a phase to the end of `loop`. -/
def LoopPhase.rank : LoopPhase → ℕ
  | .poll => 6
  | .dispatch => 5
  | .exchange => 4
  | .functors => 3
  | .destruction => 2
  | .test => 1
  | .outside => 0

namespace LoopState

open Machine

variable {α : Type} {s s' t : LoopState α} {i : Step α} {steps : List (Step α)}

/-! ## Threads in `quit` -/

/-- A loop, and the threads that have set `quit_` and are still in `quit`. -/
structure Quitting (α : Type) where
  loop : LoopState α
  quitting : List ℕ
  deriving DecidableEq, Repr

inductive QuitStep (α : Type)
  /-- A step of the loop, or of a thread that is not in `quit`. -/
  | step (i : Step α)
  /-- A thread that is in `quit` writes the descriptor. -/
  | quitWakes (thread : ℕ)
  deriving DecidableEq, Repr

/-- The thread of a step that is not the loop's alone. -/
def Step.caller : Step α → Option ℕ
  | .queueInLoop thread _ | .queued thread | .runInLoop thread _ | .wakeup thread
  | .quit thread => some thread
  | .loop | .test | .pollReturns | .handleRead | .doPendingFunctors | .swap | .call | .returns
  | .destroyed => none

/-- The thread that has set `quit_` goes on to `wakeup`, unless it is the loop's. -/
def entersQuit (threadId : ℕ) : Step α → List ℕ
  | .quit thread => if thread = threadId then [] else [thread]
  | .loop | .test | .pollReturns | .handleRead | .doPendingFunctors | .swap | .call | .returns
  | .destroyed | .queueInLoop _ _ | .queued _ | .runInLoop _ _ | .wakeup _ => []

def quitStep (l : Quitting α) : QuitStep α → Except Fault (Quitting α)
  | .step i =>
    if ∀ thread ∈ i.caller, thread ∉ l.quitting then do
      let loop ← l.loop.step i
      .ok ⟨loop, l.quitting ++ entersQuit l.loop.threadId i⟩
    else .error .impossible
  | .quitWakes thread =>
    if thread ∈ l.quitting then .ok ⟨l.loop.wakeup, l.quitting.erase thread⟩
    else .error .impossible

/-! ## No sleeping after `quit` -/

/-- The loop can be woken, or another thread that is in `quit` is about to do it. -/
def Quitting.Roused (l : Quitting α) : Prop :=
  0 < l.loop.wakeups ∨ ∃ thread ∈ l.quitting, thread ≠ l.loop.threadId

structure Quitting.Told (l : Quitting α) : Prop where
  placed : l.loop.Placed
  others : l.loop.threadId ∉ l.quitting
  roused : l.loop.phase = .poll → l.loop.quit = true → l.Roused

/-- A step that leads to `poll` with the flag set was taken there, and wakes the loop no less. -/
theorem poll_cases (h : step s i = .ok s') (hpoll : s'.phase = .poll) (hquit : s'.quit = true) :
    s.phase = .poll ∧ (s.quit = true ∧ s.wakeups ≤ s'.wakeups ∨
      ∃ thread, i = .quit thread ∧ thread ≠ s.threadId) := by
  cases i with
  | loop =>
    obtain ⟨-, h⟩ := ite_eq_ok.mp h
    obtain ⟨-, -, h⟩ := bind_eq_ok.mp h
    obtain rfl := Except.ok.inj h
    exact absurd hpoll LoopPhase.noConfusion
  | test =>
    obtain ⟨hat, h⟩ := ite_eq_ok.mp h
    split at h
    · obtain rfl := Except.ok.inj h
      exact absurd hpoll LoopPhase.noConfusion
    · rename_i hnot
      obtain rfl := Except.ok.inj h
      exact absurd hquit hnot
  | pollReturns | doPendingFunctors | swap | returns | destroyed =>
    obtain ⟨-, h⟩ := ite_eq_ok.mp h
    obtain rfl := Except.ok.inj h
    exact absurd hpoll LoopPhase.noConfusion
  | handleRead =>
    obtain ⟨hat, h⟩ := ite_eq_ok.mp h
    obtain rfl := Except.ok.inj h
    exact absurd (hat.1.symm.trans hpoll) (by decide)
  | call =>
    obtain ⟨hat, h⟩ := ite_eq_ok.mp h
    split at h
    · obtain rfl := Except.ok.inj h
      exact absurd (hat.1.symm.trans hpoll) (by decide)
    · exact absurd h error_ne_ok
  | queueInLoop thread f =>
    obtain ⟨-, h⟩ := ite_eq_ok.mp h
    obtain rfl := Except.ok.inj h
    exact ⟨hpoll, Or.inl ⟨hquit, Nat.le_refl _⟩⟩
  | runInLoop thread f =>
    obtain ⟨-, h⟩ := ite_eq_ok.mp h
    split at h <;> obtain rfl := Except.ok.inj h <;>
      exact ⟨hpoll, Or.inl ⟨hquit, Nat.le_refl _⟩⟩
  | queued thread =>
    obtain ⟨-, h⟩ := ite_eq_ok.mp h
    have hle := le_queued s thread
    obtain ⟨n, hn⟩ := queued_eq s thread
    obtain rfl := Except.ok.inj h
    rw [hn] at hpoll hquit hle ⊢
    exact ⟨hpoll, Or.inl ⟨hquit, hle⟩⟩
  | wakeup thread =>
    obtain ⟨-, h⟩ := ite_eq_ok.mp h
    have hle := le_wakeup s
    obtain ⟨n, hn⟩ := wakeup_eq s
    obtain rfl := Except.ok.inj h
    rw [hn] at hpoll hquit hle ⊢
    exact ⟨hpoll, Or.inl ⟨hquit, hle⟩⟩
  | quit thread =>
    obtain ⟨hfree, h⟩ := ite_eq_ok.mp h
    obtain rfl := Except.ok.inj h
    have hpoll : s.phase = .poll := hpoll
    refine ⟨hpoll, Or.inr ⟨thread, rfl, ?_⟩⟩
    -- the loop's own thread is in no user code there
    intro hown
    have huser := hfree.2 hown
    rw [inUserCode, hpoll] at huser
    exact absurd huser (by decide)

/-- The step lemma. -/
theorem Quitting.Told.step {l l' : Quitting α} {i : QuitStep α} (h : l.Told)
    (hl' : quitStep l i = .ok l') : l'.Told := by
  cases i with
  | step i =>
    obtain ⟨-, hl'⟩ := ite_eq_ok.mp hl'
    obtain ⟨s', hs', hl'⟩ := bind_eq_ok.mp hl'
    obtain rfl := Except.ok.inj hl'
    have hthread := (h.placed.step_cases hs').1
    refine ⟨h.placed.step hs', ?_, fun hpoll hquit ↦ ?_⟩
    · rw [hthread]
      intro hmem
      refine (List.mem_append.mp hmem).elim h.others fun hmem ↦ ?_
      cases i with
      | quit thread =>
        rw [entersQuit] at hmem
        split at hmem
        · exact absurd hmem List.not_mem_nil
        · rename_i hne
          exact hne (List.mem_singleton.mp hmem).symm
      | _ => exact absurd hmem List.not_mem_nil
    · rw [Quitting.Roused, hthread]
      obtain ⟨hpoll, ⟨hquit, hle⟩ | ⟨thread, rfl, hne⟩⟩ := poll_cases hs' hpoll hquit
      · refine (h.roused hpoll hquit).imp (fun hpos ↦ Nat.lt_of_lt_of_le hpos hle) ?_
        rintro ⟨thread, hmem, hne⟩
        exact ⟨thread, List.mem_append_left _ hmem, hne⟩
      · refine Or.inr ⟨thread, List.mem_append_right _ ?_, hne⟩
        rw [entersQuit, if_neg hne]
        exact List.mem_cons_self
  | quitWakes thread =>
    obtain ⟨-, hl'⟩ := ite_eq_ok.mp hl'
    obtain rfl := Except.ok.inj hl'
    have hpos := wakeup_pos l.loop
    obtain ⟨n, hn⟩ := wakeup_eq l.loop
    rw [hn] at hpos ⊢
    exact ⟨⟨h.placed.looping, h.placed.calling, h.placed.batch⟩,
      fun hmem ↦ h.others (List.mem_of_mem_erase hmem), fun _ _ ↦ Or.inl hpos⟩

/-- **No sleeping after `quit`.** Whatever the threads do, a loop that is blocked in `poll` with
`quit_` set can be woken, or another thread that is in `quit` is about to wake it. -/
theorem quit_rouses {threadId : ℕ} {l : Quitting α} {steps : List (QuitStep α)}
    (hrun : Machine.run quitStep ⟨start threadId, []⟩ steps = .ok l)
    (hpoll : l.loop.phase = .poll) (hquit : l.loop.quit = true) : l.Roused := by
  have hstart : Quitting.Told (⟨start threadId, []⟩ : Quitting α) :=
    ⟨placed_start threadId, List.not_mem_nil, fun hpoll ↦ absurd hpoll LoopPhase.noConfusion⟩
  exact (run_inv (fun _ _ _ h ↦ h.step) hstart hrun).roused hpoll hquit

/-- Another thread has set the flag of a loop that is blocked, and has not written the descriptor
yet. -/
theorem quit_rouses_of_other :
    ∃ l : Quitting Char, Machine.run quitStep ⟨start 0, []⟩
        [.step .loop, .step .test, .step (.queueInLoop 1 'a'), .step (.queued 1),
          .step .pollReturns, .step .handleRead, .step .doPendingFunctors, .step .swap,
          .step .call, .step .returns, .step .destroyed, .step .test, .step (.quit 1)] = .ok l ∧
      l.Roused :=
  ⟨_, rfl, quit_rouses (rfl : Machine.run quitStep (⟨start 0, []⟩ : Quitting Char)
    [.step .loop, .step .test, .step (.queueInLoop 1 'a'), .step (.queued 1), .step .pollReturns,
      .step .handleRead, .step .doPendingFunctors, .step .swap, .step .call, .step .returns,
      .step .destroyed, .step .test, .step (.quit 1)] = .ok _) rfl rfl⟩

/-! ## The rest of the iteration -/

/-- The loop's thread moves to another phase of its iteration. -/
def Step.moves : Step α → Bool
  | .test | .pollReturns | .doPendingFunctors | .swap | .returns | .destroyed => true
  | .loop | .handleRead | .call | .queueInLoop _ _ | .queued _ | .runInLoop _ _ | .wakeup _
  | .quit _ => false

/-- The batch of the iteration is still to be taken. -/
def ToExchange : LoopPhase → Prop
  | .poll | .dispatch | .exchange => True
  | .outside | .test | .functors | .destruction => False

instance : DecidablePred ToExchange
  | .poll | .dispatch | .exchange => inferInstanceAs (Decidable True)
  | .outside | .test | .functors | .destruction => inferInstanceAs (Decidable False)

/-- With the flag set a move is one towards the end. -/
theorem move_cases (hquit : s.quit = true) (hi : i ≠ .loop) (h : step s i = .ok s') :
    s'.quit = true ∧ [i].countP Step.moves + s'.phase.rank = s.phase.rank ∧
      (i = .swap ∨ (ToExchange s'.phase ↔ ToExchange s.phase)) := by
  have hsame {u : LoopState α} (hphase : u.phase = s.phase) (hflag : u.quit = true)
      (hmoves : i.moves = false) :
      u.quit = true ∧ [i].countP Step.moves + u.phase.rank = s.phase.rank ∧
        (i = .swap ∨ (ToExchange u.phase ↔ ToExchange s.phase)) := by
    refine ⟨hflag, ?_, Or.inr (by rw [hphase])⟩
    rw [List.countP_singleton, hmoves, hphase]
    exact Nat.zero_add _
  cases i with
  | loop => exact absurd rfl hi
  | test =>
    obtain ⟨hat, h⟩ := ite_eq_ok.mp h
    rw [if_pos hquit] at h
    obtain rfl := Except.ok.inj h
    rw [hat.1]
    exact ⟨hquit, rfl, Or.inr Iff.rfl⟩
  | pollReturns | doPendingFunctors | destroyed =>
    obtain ⟨hat, h⟩ := ite_eq_ok.mp h
    obtain rfl := Except.ok.inj h
    rw [hat.1]
    exact ⟨hquit, rfl, Or.inr Iff.rfl⟩
  | swap =>
    obtain ⟨hat, h⟩ := ite_eq_ok.mp h
    obtain rfl := Except.ok.inj h
    rw [hat.1]
    exact ⟨hquit, rfl, Or.inl rfl⟩
  | returns =>
    obtain ⟨⟨hat, -⟩, h⟩ := ite_eq_ok.mp h
    obtain rfl := Except.ok.inj h
    rw [hat.1]
    exact ⟨hquit, rfl, Or.inr Iff.rfl⟩
  | call =>
    obtain ⟨-, h⟩ := ite_eq_ok.mp h
    split at h
    · obtain rfl := Except.ok.inj h
      exact hsame rfl hquit rfl
    · exact absurd h error_ne_ok
  | runInLoop thread f =>
    obtain ⟨-, h⟩ := ite_eq_ok.mp h
    split at h <;> obtain rfl := Except.ok.inj h <;> exact hsame rfl hquit rfl
  | queued thread =>
    obtain ⟨-, h⟩ := ite_eq_ok.mp h
    obtain ⟨n, hn⟩ := queued_eq s thread
    obtain rfl := Except.ok.inj h
    rw [hn]
    exact hsame rfl hquit rfl
  | wakeup thread =>
    obtain ⟨-, h⟩ := ite_eq_ok.mp h
    obtain ⟨n, hn⟩ := wakeup_eq s
    obtain rfl := Except.ok.inj h
    rw [hn]
    exact hsame rfl hquit rfl
  | handleRead | queueInLoop _ _ =>
    obtain ⟨-, h⟩ := ite_eq_ok.mp h
    obtain rfl := Except.ok.inj h
    exact hsame rfl hquit rfl
  | quit thread =>
    obtain ⟨-, h⟩ := ite_eq_ok.mp h
    obtain rfl := Except.ok.inj h
    exact hsame rfl rfl rfl

/-- The run lemma: the moves that were made and those that are left are as many as at first. -/
theorem run_rank (hquit : s.quit = true) (hloop : ∀ i ∈ steps, i ≠ .loop)
    (hrun : Machine.run step s steps = .ok t) :
    t.quit = true ∧ steps.countP Step.moves + t.phase.rank = s.phase.rank := by
  induction steps generalizing s with
  | nil =>
    rw [run_nil, Except.ok.injEq] at hrun
    exact ⟨hrun ▸ hquit, by rw [hrun, List.countP_nil, Nat.zero_add]⟩
  | cons i is ih =>
    obtain ⟨u, hu, hrun⟩ := run_cons_eq_ok.mp hrun
    obtain ⟨hflag, hrank, -⟩ := move_cases hquit (hloop i List.mem_cons_self) hu
    obtain ⟨hflag', hrank'⟩ := ih hflag (fun j hj ↦ hloop j (.tail i hj)) hrun
    refine ⟨hflag', ?_⟩
    rw [← List.singleton_append, List.countP_append, ← hrank, ← hrank', Nat.add_assoc]

/-- What is queued before the batch is taken is in it. -/
theorem Placed.run_drains (hs : s.Placed) (hquit : s.quit = true) {queue : List (ℕ × α)}
    (hloop : ∀ i ∈ steps, i ≠ .loop) (hrun : Machine.run LoopState.step s steps = .ok t)
    (hahead : ToExchange s.phase ∧ queue <+: s.line ∨ queue <+: s.taken) :
    ToExchange t.phase ∧ queue <+: t.line ∨ queue <+: t.taken := by
  induction steps generalizing s with
  | nil =>
    rw [run_nil, Except.ok.injEq] at hrun
    exact hrun ▸ hahead
  | cons i is ih =>
    obtain ⟨u, hu, hrun⟩ := run_cons_eq_ok.mp hrun
    obtain ⟨hflag, -, hstay⟩ := move_cases hquit (hloop i List.mem_cons_self) hu
    refine ih (hs.step hu) hflag (fun j hj ↦ hloop j (.tail i hj)) hrun ?_
    obtain ⟨-, ⟨hne, htaken, -⟩ | ⟨-, htaken, -⟩⟩ := hs.step_cases hu
    · rw [htaken, hstay.resolve_left hne, hs.step_line hu]
      exact hahead.imp_left fun ⟨hphase, hline⟩ ↦ ⟨hphase, hline.trans (List.prefix_append _ _)⟩
    · -- the exchange takes the line
      right
      rw [htaken]
      exact hahead.elim (fun ⟨_, hline⟩ ↦ hline) fun hline ↦ hline.trans (List.prefix_append _ _)

/-- What is queued after the batch is taken stays queued. -/
theorem Placed.run_leaves (hs : s.Placed) (hquit : s.quit = true) (hphase : ¬ToExchange s.phase)
    (hloop : ∀ i ∈ steps, i ≠ .loop) (hrun : Machine.run LoopState.step s steps = .ok t) :
    t.taken = s.taken := by
  induction steps generalizing s with
  | nil =>
    rw [run_nil, Except.ok.injEq] at hrun
    rw [hrun]
  | cons i is ih =>
    obtain ⟨u, hu, hrun⟩ := run_cons_eq_ok.mp hrun
    obtain ⟨hflag, -, hstay⟩ := move_cases hquit (hloop i List.mem_cons_self) hu
    obtain ⟨-, ⟨hne, htaken, -⟩ | ⟨rfl, -⟩⟩ := hs.step_cases hu
    · rw [ih (hs.step hu) hflag (fun hc ↦ hphase ((hstay.resolve_left hne).mp hc))
        (fun j hj ↦ hloop j (.tail i hj)) hrun, htaken]
    · obtain ⟨hat, -⟩ := ite_eq_ok.mp hu
      rw [hat.1] at hphase
      exact absurd trivial hphase

/-- **Leaving the loop.** From the moment at which `quit_` is set, and unless `loop` is called
again, the loop makes the moves that are left of its iteration. It has left when they are made, and
then it has executed what was queued at that moment if and only if the batch of the iteration was
still to be taken or nothing was queued. -/
theorem quit_drains {threadId : ℕ} {before after : List (Step α)}
    (hbefore : Machine.run step (start threadId) before = .ok s) (hquit : s.quit = true)
    (hloop : ∀ i ∈ after, i ≠ .loop) (hafter : Machine.run step s after = .ok t) :
    after.countP Step.moves + t.phase.rank = s.phase.rank ∧
      (t.looping = false →
        (s.line <+: t.executed ↔ ToExchange s.phase ∨ s.pendingFunctors = [])) := by
  have hs : s.Placed := ((placed_start threadId).run hbefore).1
  have ht : t.Placed := (hs.run hafter).1
  refine ⟨(run_rank hquit hloop hafter).2, fun hleft ↦ ?_⟩
  have hphase := ht.outside hleft
  have hexecuted : t.executed = t.taken := by
    rw [taken, (ht.flags hphase).2.2 LoopPhase.noConfusion, List.append_nil]
  rw [hexecuted]
  by_cases hahead : ToExchange s.phase
  · refine iff_of_true ?_ (Or.inl hahead)
    have hdrained := hs.run_drains hquit hloop hafter (Or.inl ⟨hahead, List.prefix_rfl⟩)
    refine hdrained.resolve_left fun hc ↦ ?_
    rw [hphase] at hc
    exact hc.1
  · rw [hs.run_leaves hquit hahead hloop hafter, or_iff_right hahead, line]
    constructor
    · intro hstart
      have hlength := hstart.length_le
      rw [List.length_append] at hlength
      exact List.eq_nil_of_length_eq_zero (by omega)
    · intro hnil
      rw [hnil, List.append_nil]

/-- A functor is queued after the loop has taken its batch, and then another thread calls `quit`: it
is not executed. -/
theorem quit_drains_of_late :
    ∃ s t : LoopState Char, Machine.run step (start 0) [.loop, .test, .queueInLoop 1 'a', .queued 1,
        .pollReturns, .handleRead, .doPendingFunctors, .swap, .queueInLoop 1 'b', .queued 1,
        .quit 1] = .ok s ∧
      Machine.run step s [.wakeup 1, .call, .returns, .destroyed, .test] = .ok t ∧
      t.looping = false ∧ ¬s.line <+: t.executed := by
  obtain ⟨s, hs⟩ : ∃ s : LoopState Char, Machine.run step (start 0) [.loop, .test,
    .queueInLoop 1 'a', .queued 1, .pollReturns, .handleRead, .doPendingFunctors, .swap,
    .queueInLoop 1 'b', .queued 1, .quit 1] = .ok s := ⟨_, rfl⟩
  obtain ⟨t, ht⟩ : ∃ t : LoopState Char,
      Machine.run step s [.wakeup 1, .call, .returns, .destroyed, .test] = .ok t := by
    rw [← Except.ok.inj hs]
    exact ⟨_, rfl⟩
  have hfacts : s.quit = true ∧ t.looping = false ∧ ¬ToExchange s.phase ∧
      s.pendingFunctors ≠ [] := by
    obtain rfl := Except.ok.inj hs
    obtain rfl := Except.ok.inj ht
    decide
  obtain ⟨hquit, hleft, hphase, hqueued⟩ := hfacts
  have hdrains := (quit_drains hs hquit (by decide) ht).2 hleft
  exact ⟨s, t, hs, ht, hleft, fun hstart ↦ (hdrains.mp hstart).elim hphase hqueued⟩

end LoopState

end Twnl
