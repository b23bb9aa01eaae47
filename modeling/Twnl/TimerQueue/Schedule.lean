import Twnl.TimerQueue.Ownership
import Twnl.TimerQueue.Steps

/-!
# The schedule of the timers

A timer is entered in the set under its deadline. `handleRead` takes what is due out of the set
before the first callback is entered, so that nothing a callback adds or cancels changes the batch,
and enters a repeating timer again under its next deadline, whatever the clock says by then.

The law (`schedule`) is about runs on the loop's own thread whose cancellations are prompt. It is
read off a history: the steps that were taken, and what `ran` in them.
-/

namespace Twnl

namespace TimerQueue

open Machine

/-! ## Histories -/

/-- The step is one of the loop's own thread. -/
def Local : Step → Prop
  | .addTimer .loop _ _ _ _ | .cancelTimer .loop _ | .handleRead _ | .next | .callbackReturns
  | .finish _ => True
  | .addTimer .other _ _ _ _ | .cancelTimer .other _ | .pending _ => False

instance : DecidablePred Local
  | .addTimer .loop _ _ _ _ | .cancelTimer .loop _ | .handleRead _ | .next | .callbackReturns
  | .finish _ => inferInstanceAs (Decidable True)
  | .addTimer .other _ _ _ _ | .cancelTimer .other _ | .pending _ =>
    inferInstanceAs (Decidable False)

/-- An entry whose callback was entered, and the time its `handleRead` had read. -/
abbrev Ran := Entry × ℤ

/-- The callback that runs. -/
def running (q : TimerQueue) : List Ran :=
  match q.batch with
  | some ⟨now, some e, _⟩ => [(e, now)]
  | some ⟨_, none, _⟩ | none => []

/-- The callback a step enters. -/
def ran (q : TimerQueue) : Step → List Ran
  | .next =>
    match q.next with
    | .ok q' => q'.running
    | .error _ => []
  | .addTimer _ _ _ _ _ | .cancelTimer _ _ | .pending _ | .handleRead _ | .callbackReturns
  | .finish _ => []

/-- What is left of the batch. -/
def toCome (q : TimerQueue) : List Ran :=
  match q.batch with
  | some b => b.rest.map fun e ↦ (e, b.now)
  | none => []

/-- The times at which a timer ran. -/
def runs (history : List Ran) (timer : ℕ) : List ℤ :=
  (history.filter (·.1.2 = timer)).map Prod.snd

/-- The timer was added with this deadline and this interval. -/
def Added (past : List Step) (timer : ℕ) (when interval : ℤ) : Prop :=
  ∃ now, .addTimer .loop timer when interval now ∈ past

def Canceled (past : List Step) (timer : ℕ) : Prop := .cancelTimer .loop timer ∈ past

variable {q q' : TimerQueue} {e : Entry} {es : List Entry} {t : Timer} {timer : ℕ}
  {now when interval : ℤ} {i : Step} {past steps : List Step} {history : List Ran}

/-! ## The batch -/

theorem insertInLoop_batch (hq' : q.insertInLoop now e = .ok q') : q'.batch = q.batch := by
  obtain ⟨-, rfl⟩ := insertInLoop_ok hq'
  rw [setIfFirst]
  split <;> rfl

theorem cancelInLoop_batch (hq' : q.cancelInLoop timer = .ok q') : q'.batch = q.batch := by
  obtain ⟨t, -, rfl⟩ := cancelInLoop_ok hq'
  rfl

theorem settle_batch (hq' : q.settle timer = .ok q') : q'.batch = q.batch := by
  obtain ⟨t, -, ⟨-, rfl⟩ | ⟨-, rfl⟩⟩ := settle_ok hq'
  · rw [insert]
    split <;> rfl
  · rfl

/-- No timer of the batch is canceled, so that `next` enters a callback. -/
theorem Owned.next_ok (h : Owned q) (hq' : q.next = .ok q') :
    ∃ now e rest, q.batch = some ⟨now, none, e :: rest⟩ ∧ e.1 ≤ now ∧
      q' = q.withBatch (some ⟨now, some e, rest⟩) := by
  obtain ⟨now, e, rest, t, hbatch, ht, hdue, hrest⟩ := TimerQueue.next_ok hq'
  have hmem : e ∈ q.entries := by
    rw [entries, hbatch]
    exact List.mem_append_left _ (List.mem_append_right _ List.mem_cons_self)
  obtain ⟨t', ht', hkey, hopen⟩ := h.live e hmem
  obtain rfl := Cell.live.inj (ht'.symm.trans ht)
  refine ⟨now, e, rest, hbatch, hkey ▸ hdue, ?_⟩
  rcases hrest with ⟨-, hq'⟩ | ⟨hcanceled, -⟩
  · exact hq'
  · rw [hopen] at hcanceled
    exact absurd hcanceled Bool.false_ne_true

theorem toCome_congr (h : q'.batch = q.batch) : q'.toCome = q.toCome := by
  rw [toCome, toCome, h]

/-- A step other than the start of `handleRead` runs the next callback of the batch or none. -/
theorem Owned.ran_toCome (h : Owned q) (hi : ∀ now, i ≠ .handleRead now)
    (hq' : TimerQueue.step q i = .ok q') : ran q i ++ q'.toCome = q.toCome := by
  cases i with
  | addTimer thread timer when interval now =>
    cases thread with
    | loop =>
      obtain ⟨-, hq'⟩ := addTimer_loop_ok hq'
      have hbatch := insertInLoop_batch hq'
      exact toCome_congr hbatch
    | other =>
      obtain ⟨-, rfl⟩ := addTimer_other_ok hq'
      rfl
  | cancelTimer thread timer =>
    cases thread with
    | loop => exact toCome_congr (cancelInLoop_batch (ite_eq_ok.mp hq').2)
    | other =>
      obtain rfl := Except.ok.inj hq'
      rfl
  | pending now =>
    obtain ⟨f, fs, -, -, hq'⟩ := pending_ok hq'
    cases f with
    | insert when timer =>
      have hbatch := insertInLoop_batch hq'
      exact toCome_congr hbatch
    | cancel timer =>
      have hbatch := cancelInLoop_batch hq'
      exact toCome_congr hbatch
  | handleRead now => exact absurd rfl (hi now)
  | next =>
    have hq' : q.next = .ok q' := hq'
    rw [ran, hq']
    -- the head of the batch is what runs
    obtain ⟨now, e, rest, hbatch, -, rfl⟩ := h.next_ok hq'
    rw [toCome, toCome, hbatch]
    rfl
  | callbackReturns =>
    obtain ⟨now, e, rest, hbatch, hq'⟩ := callbackReturns_ok hq'
    rw [toCome, toCome, settle_batch hq', hbatch]
    rfl
  | finish now =>
    obtain ⟨begun, hbatch, ⟨-, rfl⟩ | ⟨e, -, rfl⟩⟩ := finish_ok hq'
    · rw [toCome, toCome, hbatch]
      rfl
    · rw [toCome, toCome, hbatch]
      rfl

/-- Up to the next `handleRead`, what runs are the callbacks of the batch. -/
theorem Owned.trace_toCome (h : Owned q) (hprompt : Along TimerQueue.step Prompt q steps)
    (hreads : ∀ now, .handleRead now ∉ steps) (hrun : run TimerQueue.step q steps = .ok q') :
    trace TimerQueue.step ran q steps ++ q'.toCome = q.toCome := by
  induction steps generalizing q with
  | nil =>
    obtain rfl := Except.ok.inj hrun
    rfl
  | cons i steps ih =>
    obtain ⟨r, hr, hrun⟩ := run_cons_eq_ok.mp hrun
    obtain ⟨hi, hprompt⟩ := along_cons.mp hprompt
    have hr' := h.ran_toCome (fun now hi ↦ hreads now (hi ▸ List.mem_cons_self)) hr
    have hrest := ih ((h.step hi).of_ok hr) (hprompt r hr)
      (fun now hmem ↦ hreads now (List.mem_cons_of_mem i hmem)) hrun
    rw [trace_cons_ok hr, List.append_assoc, hrest, hr']

/-- What is due runs, in the order of the set. -/
theorem Owned.trace_handleRead (h : Owned q) (hsorted : q.Sorted)
    (hprompt : Along TimerQueue.step Prompt q (.handleRead now :: steps))
    (hreads : ∀ now, .handleRead now ∉ steps)
    (hrun : run TimerQueue.step q (.handleRead now :: steps) = .ok q') :
    trace TimerQueue.step ran q (.handleRead now :: steps) ++ q'.toCome =
      (q.timers.filter (·.1 ≤ now)).map fun e ↦ (e, now) := by
  obtain ⟨r, hr, hrun⟩ := run_cons_eq_ok.mp hrun
  obtain ⟨hi, hprompt⟩ := along_cons.mp hprompt
  rw [trace_cons_ok hr, ran, List.nil_append,
    ((h.step hi).of_ok hr).trace_toCome (hprompt r hr) hreads hrun, ← takeWhile_eq_filter hsorted]
  obtain ⟨-, rfl⟩ := handleRead_ok hr
  rfl

/-! ## The invariant -/

section Invariant

variable {added : ℕ → ℤ → ℤ → Prop} {canceled : ℕ → Prop}

/-- The entries that wait, in the set or in the batch. -/
def waiting (q : TimerQueue) : List Entry := q.timers ++ (q.batch.map Batch.rest).getD []

/-- The entry waits under the deadline that follows the runs of its timer. -/
def Waits (added : ℕ → ℤ → ℤ → Prop) (history : List Ran) (e : Entry) : Prop :=
  ∀ when interval, added e.2 when interval →
    e.1 = when + (runs history e.2).length * interval ∧ (interval ≤ 0 → runs history e.2 = [])

/-- The last run of the timer is that of the entry. -/
def Runs (added : ℕ → ℤ → ℤ → Prop) (history : List Ran) (e : Entry) : Prop :=
  ∀ when interval, added e.2 when interval →
    e.1 + interval = when + (runs history e.2).length * interval ∧
      (interval ≤ 0 → (runs history e.2).length = 1)

/-- What was added and canceled, and what there is of it in the queue. -/
structure Known (added : ℕ → ℤ → ℤ → Prop) (canceled : ℕ → Prop) (q : TimerQueue) : Prop where
  owned : Owned q
  sorted : q.Sorted
  queued : q.pendingFunctors = []
  used : ∀ timer when interval, added timer when interval → q.heap timer ≠ .unused
  unique : ∀ timer when interval when₁ interval₁, added timer when interval →
    added timer when₁ interval₁ → when = when₁ ∧ interval = interval₁
  origin : ∀ timer t, q.heap timer = .live t →
    (∃ when, added timer when t.interval) ∧ (t.repeats = true ↔ 0 < t.interval)
  canceled : ∀ timer, canceled timer → timer ∈ q.released

/-- The invariant. -/
structure Scheduled (added : ℕ → ℤ → ℤ → Prop) (canceled : ℕ → Prop) (history : List Ran)
    (q : TimerQueue) : Prop where
  known : Known added canceled q
  waits : ∀ e ∈ q.waiting, Waits added history e
  current : ∀ r ∈ q.running, Runs added history r.1
  kept : ∀ timer when interval, added timer when interval → ¬canceled timer →
    0 < interval ∨ runs history timer = [] → ∃ e ∈ q.entries, e.2 = timer
  once : ∀ timer when interval, added timer when interval → interval ≤ 0 →
    (runs history timer).length ≤ 1
  late : ∀ timer when interval, added timer when interval → ∀ (k : ℕ) n,
    (runs history timer)[k]? = some n → when + k * interval ≤ n
  used : ∀ r ∈ history, q.heap r.1.2 ≠ .unused

theorem scheduled_new : Scheduled (fun _ _ _ ↦ False) (fun _ ↦ False) [] new := by
  refine ⟨⟨owned_new, .nil, rfl, ?_, ?_, ?_, ?_⟩, ?_, ?_, ?_, ?_, ?_, nofun⟩
  · exact nofun
  · exact nofun
  · exact fun _ _ h ↦ absurd h nofun
  · exact nofun
  · exact fun _ h ↦ absurd h List.not_mem_nil
  · exact fun _ h ↦ absurd h List.not_mem_nil
  · exact nofun
  · exact nofun
  · exact nofun

/-! ### Moves -/

/-- The entries are moved, or some are struck off that were to end. -/
theorem Scheduled.move (h : Scheduled added canceled history q) (hknown : Known added canceled q')
    (hwaiting : ∀ e ∈ q'.waiting, e ∈ q.waiting) (hrunning : ∀ r ∈ q'.running, r ∈ q.running)
    (hentries : ∀ e ∈ q.entries, e ∈ q'.entries) (hheap : q'.heap = q.heap) :
    Scheduled added canceled history q' := by
  refine ⟨hknown, fun e he ↦ h.waits e (hwaiting e he), fun r hr ↦ h.current r (hrunning r hr),
    fun timer when interval hadded hcanceled hgoes ↦ ?_, h.once, h.late, hheap ▸ h.used⟩
  obtain ⟨e, he, htimer⟩ := h.kept timer when interval hadded hcanceled hgoes
  exact ⟨e, hentries e he, htimer⟩

/-- Neither timers nor functors are touched. -/
theorem Known.move (h : Known added canceled q) (howned : Owned q') (hsorted : q'.Sorted)
    (hqueued : q'.pendingFunctors = q.pendingFunctors) (hheap : q'.heap = q.heap)
    (hreleased : q'.released = q.released) : Known added canceled q' := by
  refine ⟨howned, hsorted, hqueued.trans h.queued, ?_, h.unique, ?_, ?_⟩
  · rw [hheap]
    exact h.used
  · rw [hheap]
    exact h.origin
  · rw [hreleased]
    exact h.canceled

theorem Known.entries_eq (h : Known added canceled q) :
    q.entries = q.timers ++ batchEntries q.batch := by
  rw [entries, h.queued]
  exact List.append_nil _

theorem Scheduled.handleRead (h : Scheduled added canceled history q) (howned : Owned q')
    (hq' : q.handleRead now = .ok q') : Scheduled added canceled history q' := by
  obtain ⟨hbatch, rfl⟩ := handleRead_ok hq'
  have hsorted := h.known.sorted.sublist (List.dropWhile_sublist fun e : Entry ↦ e.1 < now + 1)
  have hknown := h.known.move howned hsorted rfl rfl rfl
  have hmem : ∀ e, e ∈ q.timers ↔ e ∈ q.timers.dropWhile (fun e ↦ e.1 < now + 1) ++
      q.timers.takeWhile fun e ↦ e.1 < now + 1 := by
    intro e
    rw [List.mem_append, or_comm, ← List.mem_append, List.takeWhile_append_dropWhile]
  refine h.move hknown (fun e he ↦ ?_) nofun (fun e he ↦ ?_) rfl
  · exact List.mem_append_left _ ((hmem e).mpr he)
  · rw [h.known.entries_eq, hbatch, batchEntries, List.append_nil] at he
    rw [hknown.entries_eq]
    exact (hmem e).mp he

theorem Scheduled.finish (h : Scheduled added canceled history q) (howned : Owned q')
    (hq' : q.finish now = .ok q') : Scheduled added canceled history q' := by
  obtain ⟨begun, hbatch, hcases⟩ := finish_ok hq'
  have hframe : q'.timers = q.timers ∧ q'.batch = none ∧ q'.pendingFunctors = q.pendingFunctors ∧
      q'.heap = q.heap ∧ q'.released = q.released := by
    rcases hcases with ⟨-, rfl⟩ | ⟨e, -, rfl⟩ <;> exact ⟨rfl, rfl, rfl, rfl, rfl⟩
  obtain ⟨htimers, hnone, hqueued, hheap, hreleased⟩ := hframe
  have hsorted : q'.Sorted := by
    rw [Sorted, htimers]
    exact h.known.sorted
  refine h.move (h.known.move howned hsorted hqueued hheap hreleased) (fun e he ↦ ?_)
    (fun r hr ↦ ?_) (fun e he ↦ ?_) hheap
  · rw [waiting, htimers, hnone] at he
    rwa [waiting, hbatch]
  · rw [running, hnone] at hr
    exact absurd hr List.not_mem_nil
  · rw [entries, hbatch] at he
    rwa [entries, htimers, hnone, hqueued]

/-- The interval a timer was added with. -/
theorem Known.interval_eq (h : Known added canceled q) (ht : q.heap timer = .live t)
    (hadded : added timer when interval) : interval = t.interval := by
  obtain ⟨⟨w, hw⟩, -⟩ := h.origin timer t ht
  exact (h.unique timer when interval w t.interval hadded hw).2

theorem Known.mem_entries (h : Known added canceled q) {rest : List Entry} {e' : Entry}
    (hbatch : q.batch = some ⟨now, some e, rest⟩) :
    e' ∈ q.entries ↔ e' = e ∨ e' ∈ q.timers ∨ e' ∈ rest := by
  rw [h.entries_eq, hbatch]
  change e' ∈ q.timers ++ e :: rest ↔ _
  rw [List.mem_append, List.mem_cons, or_left_comm]

theorem Known.mem_entries_of_waiting (h : Known added canceled q) (he : e ∈ q.waiting) :
    e ∈ q.entries := by
  rw [h.entries_eq]
  refine (List.mem_append.mp he).elim (List.mem_append_left _) fun he ↦ List.mem_append_right _ ?_
  cases hbatch : q.batch with
  | none =>
    rw [hbatch] at he
    exact absurd he List.not_mem_nil
  | some b =>
    rw [hbatch] at he
    exact List.mem_append_right _ he

theorem Known.mem_entries_of_running {r : Ran} (h : Known added canceled q) (hr : r ∈ q.running) :
    r.1 ∈ q.entries := by
  rw [running] at hr
  split at hr
  · rename_i hbatch
    obtain rfl := List.mem_singleton.mp hr
    exact (h.mem_entries hbatch).mpr (Or.inl rfl)
  all_goals exact absurd hr List.not_mem_nil

theorem Known.freed (h : Known added canceled q) (howned : Owned q') (hsorted : q'.Sorted)
    (hqueued : q'.pendingFunctors = q.pendingFunctors) (hlive : q.heap timer = .live t)
    (hheap : q'.heap = Function.update q.heap timer .released)
    (hreleased : q'.released = q.released ++ [timer]) : Known added canceled q' := by
  have hused : q.heap timer ≠ .unused := by
    rw [hlive]
    exact nofun
  refine ⟨howned, hsorted, hqueued.trans h.queued, fun j w d hadded ↦ ?_, h.unique,
    fun j t' ht' ↦ ?_, fun j hj ↦ ?_⟩
  · rw [hheap, used_update hused (show Cell.released ≠ .unused from nofun)]
    exact h.used j w d hadded
  · rw [hheap] at ht'
    by_cases hj : j = timer
    · rw [hj, Function.update_self] at ht'
      exact absurd ht' nofun
    · rw [Function.update_of_ne hj] at ht'
      exact h.origin j t' ht'
  · rw [hreleased]
    exact List.mem_append_left _ (h.canceled j hj)

theorem insert_frame (hq' : q' = q.insert e) :
    (∀ e', e' ∈ q'.timers ↔ e' = e ∨ e' ∈ q.timers) ∧ q'.batch = q.batch ∧
      q'.pendingFunctors = q.pendingFunctors ∧ q'.heap = q.heap ∧ q'.released = q.released := by
  subst hq'
  rw [insert]
  split
  · rename_i hmem
    refine ⟨fun e' ↦ (or_iff_right_of_imp ?_).symm, rfl, rfl, rfl, rfl⟩
    rintro rfl
    exact hmem
  · exact ⟨fun e' ↦ List.mem_orderedInsert _, rfl, rfl, rfl, rfl⟩

/-- After its last run an entry is struck off. -/
theorem Scheduled.free (h : Scheduled added canceled history q) {rest : List Entry}
    (hbatch : q.batch = some ⟨now, some e, rest⟩) (ht : q.heap e.2 = .live t)
    (hends : t.repeats ≠ true) (howned : Owned q')
    (hq' : q' = (q.withBatch (some ⟨now, none, rest⟩)).freed e.2) :
    Scheduled added canceled history q' := by
  subst hq'
  have hknown := h.known.freed howned h.known.sorted rfl ht rfl rfl
  have hused : q.heap e.2 ≠ .unused := by
    rw [ht]
    exact nofun
  refine ⟨hknown, fun e' he' ↦ h.waits e' ?_, nofun, fun j w d hadded hopen hgoes ↦ ?_, h.once,
    h.late, fun r hr ↦ ?_⟩
  · rw [waiting, hbatch]
    exact he'
  · obtain ⟨e', he', rfl⟩ := h.kept j w d hadded hopen hgoes
    rcases (h.known.mem_entries hbatch).mp he' with rfl | hmem
    · -- the timer does not repeat, and has run
      exfalso
      obtain rfl := h.known.interval_eq ht hadded
      have hnot : ¬0 < t.interval := fun hpos ↦ hends ((h.known.origin _ t ht).2.mpr hpos)
      have hlen := (h.current (e', now) (by rw [running, hbatch]; exact List.mem_cons_self) w _
        hadded).2 (Int.not_lt.mp hnot)
      rw [hgoes.resolve_left hnot] at hlen
      exact absurd hlen nofun
    · refine ⟨e', ?_, rfl⟩
      rw [hknown.entries_eq]
      exact List.mem_append.mpr hmem
  · exact (used_update hused (show Cell.released ≠ .unused from nofun) _).mpr (h.used r hr)

/-- After any other run an entry is inserted under the next deadline. -/
theorem Scheduled.restart (h : Scheduled added canceled history q) {rest : List Entry}
    (hbatch : q.batch = some ⟨now, some e, rest⟩) (ht : q.heap e.2 = .live t)
    (hrepeats : t.repeats = true) (howned : Owned q') (hsorted : q'.Sorted)
    (hq' : q' = ((q.withBatch (some ⟨now, none, rest⟩)).write e.2
      { t with when := t.when + t.interval }).insert (t.when + t.interval, e.2)) :
    Scheduled added canceled history q' := by
  obtain ⟨hmem, hbatch', hqueued, hheap, hreleased⟩ := insert_frame hq'
  have hused : q.heap e.2 ≠ .unused := by
    rw [ht]
    exact nofun
  -- a cell that is written was in use
  have hused' (j : ℕ) : q'.heap j ≠ .unused ↔ q.heap j ≠ .unused := by
    rw [hheap]
    exact used_update hused (show Cell.live _ ≠ .unused from nofun) j
  obtain ⟨t', ht', hkey, -⟩ := h.known.owned.live e ((h.known.mem_entries hbatch).mpr (Or.inl rfl))
  obtain rfl := Cell.live.inj (ht'.symm.trans ht)
  have hknown : Known added canceled q' := by
    refine ⟨howned, hsorted, hqueued.trans h.known.queued, fun j w d hadded ↦ ?_, h.known.unique,
      fun j t₁ ht₁ ↦ ?_, ?_⟩
    · exact (hused' j).mpr (h.known.used j w d hadded)
    · rw [hheap] at ht₁
      by_cases hj : j = e.2
      · subst hj
        obtain rfl := Cell.live.inj ((Function.update_self _ _ _).symm.trans ht₁)
        exact h.known.origin _ t' ht
      · exact h.known.origin j t₁ ((Function.update_of_ne hj _ _).symm.trans ht₁)
    · rw [hreleased]
      exact h.known.canceled
  refine ⟨hknown, fun e' he' ↦ ?_, fun r hr ↦ ?_, fun j w d hadded hopen hgoes ↦ ?_, h.once, h.late,
    fun r hr ↦ (hused' _).mpr (h.used r hr)⟩
  · rw [waiting, hbatch'] at he'
    rcases List.mem_append.mp he' with he' | he'
    · rcases (hmem e').mp he' with rfl | he'
      · intro w d hadded
        obtain rfl := h.known.interval_eq ht hadded
        -- one interval after the deadline of the run that returns
        have hpos := (h.known.origin _ t' ht).2.mp hrepeats
        have hlast := (h.current (e, now) (by rw [running, hbatch]; exact List.mem_cons_self) w _
          hadded).1
        rw [← hkey] at hlast
        exact ⟨hlast, fun hneg ↦ absurd hpos (Int.not_lt.mpr hneg)⟩
      · exact h.waits e' (List.mem_append_left _ he')
    · refine h.waits e' (List.mem_append_right _ ?_)
      rw [hbatch]
      exact he'
  · rw [running, hbatch'] at hr
    exact absurd hr List.not_mem_nil
  · obtain ⟨e', he', rfl⟩ := h.kept j w d hadded hopen hgoes
    rw [hknown.entries_eq, hbatch']
    rcases (h.known.mem_entries hbatch).mp he' with rfl | he' | he'
    · exact ⟨_, List.mem_append_left _ ((hmem _).mpr (Or.inl rfl)), rfl⟩
    · exact ⟨e', List.mem_append_left _ ((hmem e').mpr (Or.inr he')), rfl⟩
    · exact ⟨e', List.mem_append_right _ he', rfl⟩

theorem Scheduled.callbackReturns (h : Scheduled added canceled history q) (howned : Owned q')
    (hsorted : q'.Sorted) (hq' : q.callbackReturns = .ok q') :
    Scheduled added canceled history q' := by
  obtain ⟨now, e, rest, hbatch, hq'⟩ := callbackReturns_ok hq'
  obtain ⟨t, ht, ⟨⟨-, hrepeats⟩, hq'⟩ | ⟨hends, hq'⟩⟩ := settle_ok hq'
  · exact h.restart hbatch ht hrepeats howned hsorted hq'
  · have hmem := (h.known.mem_entries hbatch).mpr (Or.inl rfl)
    obtain ⟨t', ht', -, hopen⟩ := h.known.owned.live e hmem
    obtain rfl := Cell.live.inj (ht'.symm.trans ht)
    exact h.free hbatch ht (fun hrepeats ↦ hends ⟨hopen, hrepeats⟩) howned hq'

theorem runs_concat (history : List Ran) (r : Ran) (timer : ℕ) :
    runs (history ++ [r]) timer =
      runs history timer ++ if r.1.2 = timer then [r.2] else [] := by
  rw [runs, runs, List.filter_append, List.map_append, List.filter_singleton]
  split <;> simp_all

theorem runs_concat_self (history : List Ran) (e : Entry) (now : ℤ) :
    runs (history ++ [(e, now)]) e.2 = runs history e.2 ++ [now] := by
  rw [runs_concat, if_pos rfl]

theorem runs_concat_of_ne (h : e.2 ≠ timer) (history : List Ran) (now : ℤ) :
    runs (history ++ [(e, now)]) timer = runs history timer := by
  rw [runs_concat, if_neg h, List.append_nil]

/-- The next callback is entered. -/
theorem Scheduled.enter (h : Scheduled added canceled history q) {rest : List Entry}
    (hbatch : q.batch = some ⟨now, none, e :: rest⟩) (hdue : e.1 ≤ now)
    (howned : Owned (q.withBatch (some ⟨now, some e, rest⟩))) :
    Scheduled added canceled (history ++ [(e, now)]) (q.withBatch (some ⟨now, some e, rest⟩)) := by
  have hentries : q.entries = q.timers ++ e :: rest := by
    rw [h.known.entries_eq, hbatch]
    rfl
  have hmem : e ∈ q.entries := by
    rw [hentries]
    exact List.mem_append_right _ List.mem_cons_self
  have hwaits : Waits added history e := by
    apply h.waits
    rw [waiting, hbatch]
    exact List.mem_append_right _ List.mem_cons_self
  have hknown : Known added canceled (q.withBatch (some ⟨now, some e, rest⟩)) :=
    h.known.move howned h.known.sorted rfl rfl rfl
  refine ⟨hknown, fun e' he' ↦ ?_, fun r hr ↦ ?_, fun j w d hadded hopen hgoes ↦ ?_,
    fun j w d hadded hneg ↦ ?_, fun j w d hadded k n hn ↦ ?_, fun r hr ↦ ?_⟩
  · -- whoever else waits is another timer
    have hperm : q.entries.Perm (e :: (q.timers ++ rest)) := by
      rw [hentries]
      exact List.perm_middle
    have hne : e.2 ≠ e'.2 := (h.known.owned.ne_of_perm hperm he').symm
    intro w d hadded
    rw [runs_concat_of_ne hne]
    refine h.waits e' ?_ w d hadded
    rw [waiting, hbatch]
    rcases List.mem_append.mp he' with he' | he'
    · exact List.mem_append_left _ he'
    · exact List.mem_append_right _ (List.mem_cons_of_mem e he')
  · obtain rfl := List.mem_singleton.mp hr
    intro w d hadded
    -- what ran was waiting, and has one run more
    obtain ⟨hkey, hnil⟩ := hwaits w d hadded
    rw [runs_concat_self, List.length_append, List.length_singleton]
    refine ⟨?_, fun hneg ↦ by rw [hnil hneg]; rfl⟩
    rw [hkey, Int.natCast_add, Int.add_mul, Int.add_assoc, Int.natCast_one, Int.one_mul]
  · have hwas : 0 < d ∨ runs history j = [] := by
      refine hgoes.imp_right fun hnil ↦ ?_
      rw [runs_concat] at hnil
      exact (List.append_eq_nil_iff.mp hnil).1
    obtain ⟨e', he', rfl⟩ := h.kept j w d hadded hopen hwas
    refine ⟨e', ?_, rfl⟩
    rw [hknown.entries_eq]
    rwa [hentries] at he'
  · by_cases hj : e.2 = j
    · subst hj
      rw [runs_concat_self, (hwaits w d hadded).2 hneg]
      exact Nat.le_refl 1
    · rw [runs_concat_of_ne hj]
      exact h.once j w d hadded hneg
  · by_cases hj : e.2 = j
    · subst hj
      rw [runs_concat_self] at hn
      rcases Nat.lt_or_ge k (runs history e.2).length with hk | hk
      · rw [List.getElem?_append_left hk] at hn
        exact h.late e.2 w d hadded k n hn
      · -- the run that is entered
        rw [List.getElem?_append_right hk] at hn
        obtain ⟨hlast, hn⟩ := List.getElem?_eq_some_iff.mp hn
        rw [List.length_singleton] at hlast
        have hk' : k = (runs history e.2).length := by omega
        rw [List.getElem_singleton] at hn
        rw [hk', ← (hwaits w d hadded).1, ← hn]
        exact hdue
    · rw [runs_concat_of_ne hj] at hn
      exact h.late j w d hadded k n hn
  · rcases List.mem_append.mp hr with hr | hr
    · exact h.used r hr
    · obtain rfl := List.mem_singleton.mp hr
      obtain ⟨t, ht, -⟩ := h.known.owned.live e hmem
      change q.heap e.2 ≠ .unused
      rw [ht]
      exact nofun

theorem Scheduled.next (h : Scheduled added canceled history q) (howned : Owned q')
    (hq' : q.next = .ok q') : Scheduled added canceled (history ++ ran q .next) q' := by
  rw [ran, hq']
  obtain ⟨now, e, rest, hbatch, hdue, rfl⟩ := h.known.owned.next_ok hq'
  exact h.enter hbatch hdue howned

/-- What adding a timer leaves. -/
theorem addTimer_ok (hq' : TimerQueue.step q (.addTimer .loop timer when interval now) = .ok q') :
    q.heap timer = .unused ∧ (∀ e, e ∈ q'.timers ↔ e = (when, timer) ∨ e ∈ q.timers) ∧
      q'.batch = q.batch ∧ q'.pendingFunctors = q.pendingFunctors ∧ q'.released = q.released ∧
      q'.heap = Function.update q.heap timer (.live (.new when interval)) := by
  obtain ⟨hnew, hq'⟩ := addTimer_loop_ok hq'
  obtain ⟨-, rfl⟩ := insertInLoop_ok hq'
  refine ⟨hnew, fun e ↦ ?_, ?_⟩
  · rw [setIfFirst_timers]
    exact List.mem_orderedInsert _
  · rw [setIfFirst]
    split <;> exact ⟨rfl, rfl, rfl, rfl⟩

theorem Known.addTimer (h : Known added canceled q) (howned : Owned q') (hsorted : q'.Sorted)
    (hq' : TimerQueue.step q (.addTimer .loop timer when interval now) = .ok q') :
    Known (fun j w d ↦ added j w d ∨ j = timer ∧ w = when ∧ d = interval) canceled q' := by
  obtain ⟨hnew, -, -, hqueued, hreleased, hheap⟩ := addTimer_ok hq'
  have hfresh (w d : ℤ) : ¬added timer w d := fun hadded ↦ h.used timer w d hadded hnew
  refine ⟨howned, hsorted, hqueued.trans h.queued, ?_, ?_, fun j t ht ↦ ?_, ?_⟩
  · intro j w d hadded
    rw [hheap]
    rcases hadded with hadded | ⟨rfl, -⟩
    · have hne : j ≠ timer := fun hj ↦ hfresh w d (hj ▸ hadded)
      rw [Function.update_of_ne hne]
      exact h.used j w d hadded
    · rw [Function.update_self]
      exact nofun
  · intro j w d w₁ d₁ hadded hadded₁
    rcases hadded with hadded | ⟨rfl, rfl, rfl⟩ <;> rcases hadded₁ with hadded₁ | ⟨hj, rfl, rfl⟩
    · exact h.unique j w d w₁ d₁ hadded hadded₁
    · exact absurd (hj ▸ hadded) (hfresh w d)
    · exact absurd hadded₁ (hfresh w₁ d₁)
    · exact ⟨rfl, rfl⟩
  · rw [hheap] at ht
    by_cases hj : j = timer
    · subst hj
      obtain rfl := Cell.live.inj ((Function.update_self _ _ _).symm.trans ht)
      exact ⟨⟨when, Or.inr ⟨rfl, rfl, rfl⟩⟩, decide_eq_true_iff⟩
    · obtain ⟨⟨w, hw⟩, hrepeats⟩ := h.origin j t ((Function.update_of_ne hj _ _).symm.trans ht)
      exact ⟨⟨w, Or.inl hw⟩, hrepeats⟩
  · rw [hreleased]
    exact h.canceled

/-- A timer that is added has not run. -/
theorem Scheduled.addTimer (h : Scheduled added canceled history q) (howned : Owned q')
    (hsorted : q'.Sorted)
    (hq' : TimerQueue.step q (.addTimer .loop timer when interval now) = .ok q') :
    Scheduled (fun j w d ↦ added j w d ∨ j = timer ∧ w = when ∧ d = interval) canceled
      history q' := by
  have hknown := h.known.addTimer howned hsorted hq'
  obtain ⟨hnew, hmem, hbatch, -, -, hheap⟩ := addTimer_ok hq'
  -- a timer that ran has a cell
  have hnone : runs history timer = [] := by
    rw [runs, List.map_eq_nil_iff, List.filter_eq_nil_iff]
    intro r hr hr'
    exact h.used r hr (of_decide_eq_true hr' ▸ hnew)
  have hlisted : ∀ e ∈ q.entries, e ∈ q'.entries := by
    intro e he
    rw [hknown.entries_eq, hbatch]
    rw [h.known.entries_eq] at he
    refine (List.mem_append.mp he).elim (fun he ↦ ?_) (List.mem_append_right _)
    exact List.mem_append_left _ ((hmem e).mpr (Or.inr he))
  -- no entry is of a cell that was not in use
  have hother (e : Entry) (he : e ∈ q.entries) : e.2 ≠ timer := by
    intro heq
    obtain ⟨t, ht, -⟩ := h.known.owned.live e he
    rw [heq, hnew] at ht
    exact absurd ht nofun
  refine ⟨hknown, fun e he w d hadded ↦ ?_, fun r hr w d hadded ↦ ?_,
    fun j w d hadded hopen hgoes ↦ ?_, fun j w d hadded hneg ↦ ?_,
    fun j w d hadded k n hn ↦ ?_, fun r hr ↦ ?_⟩
  · rw [waiting, hbatch] at he
    have hwas : e ∈ q.waiting ∨ e = (when, timer) := by
      rcases List.mem_append.mp he with he | he
      · exact ((hmem e).mp he).symm.imp_left (List.mem_append_left _)
      · exact Or.inl (List.mem_append_right _ he)
    rcases hwas with he | rfl
    · have hne := hother e (h.known.mem_entries_of_waiting he)
      exact h.waits e he w d (hadded.resolve_right fun hnow ↦ hne hnow.1)
    · obtain ⟨-, rfl, rfl⟩ := hadded.resolve_left fun hwas ↦ h.known.used timer w d hwas hnew
      rw [hnone]
      refine ⟨?_, fun _ ↦ rfl⟩
      rw [List.length_nil, Int.natCast_zero, Int.zero_mul, Int.add_zero]
  · have hr' : r ∈ q.running := by rwa [running, hbatch] at hr
    have hne := hother r.1 (h.known.mem_entries_of_running hr')
    exact h.current r hr' w d (hadded.resolve_right fun hnow ↦ hne hnow.1)
  · rcases hadded with hadded | ⟨rfl, -⟩
    · obtain ⟨e, he, htimer⟩ := h.kept j w d hadded hopen hgoes
      exact ⟨e, hlisted e he, htimer⟩
    · exact ⟨(when, j), mem_entries_of_timers ((hmem _).mpr (Or.inl rfl)), rfl⟩
  · rcases hadded with hadded | ⟨rfl, -⟩
    · exact h.once j w d hadded hneg
    · rw [hnone]
      exact Nat.zero_le 1
  · rcases hadded with hadded | ⟨rfl, -⟩
    · exact h.late j w d hadded k n hn
    · rw [hnone] at hn
      exact absurd hn nofun
  · rw [hheap]
    by_cases hj : r.1.2 = timer
    · rw [hj, Function.update_self]
      exact nofun
    · rw [Function.update_of_ne hj]
      exact h.used r hr

/-- A timer that is canceled is struck off. -/
theorem Scheduled.cancelTimer (h : Scheduled added canceled history q) (howned : Owned q')
    (hsorted : q'.Sorted) (hprompt : q.Pending timer) (hq' : q.cancelInLoop timer = .ok q') :
    Scheduled added (fun j ↦ canceled j ∨ j = timer) history q' := by
  obtain ⟨t, ht, rfl⟩ := cancelInLoop_ok hq'
  obtain ⟨e, he, rfl⟩ := hprompt
  obtain ⟨t', ht', hkey, -⟩ := h.known.owned.live e (mem_entries_of_timers he)
  obtain rfl := Cell.live.inj (ht'.symm.trans ht)
  have hfreed := h.known.freed howned hsorted rfl ht rfl rfl
  -- the cell is released, which is what the law of the canceled asks
  have hknown : Known added (fun j ↦ canceled j ∨ j = e.2)
      ((q.withTimers (q.timers.erase (t'.when, e.2))).freed e.2) := by
    refine ⟨howned, hsorted, hfreed.queued, hfreed.used, hfreed.unique, hfreed.origin, ?_⟩
    rintro j (hj | rfl)
    · exact hfreed.canceled j hj
    · exact List.mem_append_right _ (List.mem_singleton.mpr rfl)
  have hused : q.heap e.2 ≠ .unused := by
    rw [ht]
    exact nofun
  refine ⟨hknown, fun e' he' ↦ h.waits e' ?_, h.current, fun j w d hadded hopen hgoes ↦ ?_, h.once,
    h.late, fun r hr ↦ ?_⟩
  · rcases List.mem_append.mp he' with he' | he'
    · exact List.mem_append_left _ (List.mem_of_mem_erase he')
    · exact List.mem_append_right _ he'
  · obtain ⟨e', he', rfl⟩ := h.kept j w d hadded (fun hj ↦ hopen (Or.inl hj)) hgoes
    refine ⟨e', ?_, rfl⟩
    rw [hknown.entries_eq]
    rw [h.known.entries_eq] at he'
    refine (List.mem_append.mp he').elim (fun he' ↦ List.mem_append_left _ ?_)
      (List.mem_append_right _)
    refine (List.mem_erase_of_ne ?_).mpr he'
    rintro rfl
    exact hopen (Or.inr rfl)
  · exact (used_update hused (show Cell.released ≠ .unused from nofun) _).mpr (h.used r hr)

end Invariant

end TimerQueue

end Twnl
