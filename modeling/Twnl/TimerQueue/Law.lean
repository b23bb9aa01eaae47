import Twnl.TimerQueue.Schedule

/-!
# The law of the schedule

A run on the loop's own thread whose cancellations are prompt is scheduled at its end by what it
added and what it canceled (`Scheduled.run`), and from that the law follows (`schedule`): what one
`handleRead` runs, how often and when a timer runs, and what its cancellation stops.
-/

namespace Twnl

namespace TimerQueue

open Machine

variable {q q' : TimerQueue} {e : Entry} {t : Timer} {timer : ℕ} {now when interval : ℤ}
  {i : Step} {past steps : List Step} {history : List Ran}

/-! ## The histories of runs -/

theorem added_concat {w d : ℤ} {j : ℕ} :
    Added (past ++ [i]) j w d ↔ Added past j w d ∨ ∃ now, i = .addTimer .loop j w d now := by
  constructor
  · rintro ⟨now, hmem⟩
    refine (List.mem_append.mp hmem).imp (fun hmem ↦ ⟨now, hmem⟩) fun hmem ↦ ⟨now, ?_⟩
    exact (List.mem_singleton.mp hmem).symm
  · rintro (⟨now, hmem⟩ | ⟨now, rfl⟩)
    · exact ⟨now, List.mem_append_left _ hmem⟩
    · exact ⟨now, List.mem_append_right _ (List.mem_singleton.mpr rfl)⟩

theorem canceled_concat {j : ℕ} :
    Canceled (past ++ [i]) j ↔ Canceled past j ∨ i = .cancelTimer .loop j := by
  rw [Canceled, Canceled, List.mem_append, List.mem_singleton, eq_comm]

theorem Scheduled.congr {added added' : ℕ → ℤ → ℤ → Prop} {canceled canceled' : ℕ → Prop}
    (h : Scheduled added canceled history q) (hadded : ∀ j w d, added' j w d ↔ added j w d)
    (hcanceled : ∀ j, canceled' j ↔ canceled j) : Scheduled added' canceled' history q := by
  obtain rfl : added' = added := by
    funext j w d
    exact propext (hadded j w d)
  obtain rfl : canceled' = canceled := by
    funext j
    exact propext (hcanceled j)
  exact h

/-- The step lemma. -/
theorem Scheduled.step (h : Scheduled (Added past) (Canceled past) history q) (hlocal : Local i)
    (hi : q.Prompt i) (hq' : TimerQueue.step q i = .ok q') :
    Scheduled (Added (past ++ [i])) (Canceled (past ++ [i])) (history ++ ran q i) q' := by
  have howned : Owned q' := (h.known.owned.step hi).of_ok hq'
  have hsorted := h.known.sorted.step hq'
  -- a step that neither adds nor cancels leaves both sets as they are
  have hsame (hadd : ∀ j w d now, i ≠ .addTimer .loop j w d now)
      (hcancel : ∀ j, i ≠ .cancelTimer .loop j)
      (h' : Scheduled (Added past) (Canceled past) (history ++ ran q i) q') :
      Scheduled (Added (past ++ [i])) (Canceled (past ++ [i])) (history ++ ran q i) q' := by
    refine h'.congr (fun j w d ↦ ?_) fun j ↦ ?_
    · exact added_concat.trans (or_iff_left fun hadded ↦
        hadded.elim fun now hnow ↦ hadd j w d now hnow)
    · exact canceled_concat.trans (or_iff_left (hcancel j))
  cases i with
  | addTimer thread timer when interval now =>
    cases thread with
    | loop =>
      rw [ran, List.append_nil]
      refine (h.addTimer howned hsorted hq').congr (fun j w d ↦ ?_) fun j ↦ ?_
      · refine added_concat.trans (or_congr_right ⟨?_, ?_⟩)
        · rintro ⟨now', hnow⟩
          cases hnow
          exact ⟨rfl, rfl, rfl⟩
        · rintro ⟨rfl, rfl, rfl⟩
          exact ⟨now, rfl⟩
      · exact canceled_concat.trans (or_iff_left (by simp))
    | other => exact hlocal.elim
  | cancelTimer thread timer =>
    cases thread with
    | loop =>
      rw [ran, List.append_nil]
      refine (h.cancelTimer howned hsorted hi (ite_eq_ok.mp hq').2).congr (fun j w d ↦ ?_)
        fun j ↦ ?_
      · exact added_concat.trans (or_iff_left (by simp))
      · refine canceled_concat.trans (or_congr_right ⟨fun heq ↦ ?_, fun heq ↦ ?_⟩)
        · cases heq
          rfl
        · rw [heq]
    | other => exact hlocal.elim
  | pending now => exact hlocal.elim
  | handleRead now =>
    refine hsame (by simp) (by simp) ?_
    rw [ran, List.append_nil]
    exact h.handleRead howned hq'
  | next => exact hsame (by simp) (by simp) (h.next howned hq')
  | callbackReturns =>
    refine hsame (by simp) (by simp) ?_
    rw [ran, List.append_nil]
    exact h.callbackReturns howned hsorted hq'
  | finish now =>
    refine hsame (by simp) (by simp) ?_
    rw [ran, List.append_nil]
    exact h.finish howned hq'

/-- The run lemma. -/
theorem Scheduled.run (h : Scheduled (Added past) (Canceled past) history q)
    (hlocal : ∀ i ∈ steps, Local i) (hprompt : Along TimerQueue.step Prompt q steps)
    (hrun : run TimerQueue.step q steps = .ok q') :
    Scheduled (Added (past ++ steps)) (Canceled (past ++ steps))
      (history ++ trace TimerQueue.step ran q steps) q' := by
  induction steps generalizing past history q with
  | nil =>
    obtain rfl := Except.ok.inj hrun
    rw [trace_nil, List.append_nil, List.append_nil]
    exact h
  | cons i steps ih =>
    obtain ⟨r, hr, hrun⟩ := run_cons_eq_ok.mp hrun
    obtain ⟨hi, hprompt⟩ := along_cons.mp hprompt
    have hstep := h.step (hlocal i List.mem_cons_self) hi hr
    have hrest := ih hstep (fun j hj ↦ hlocal j (List.mem_cons_of_mem i hj)) (hprompt r hr) hrun
    rw [List.append_assoc, List.append_assoc] at hrest
    rw [trace_cons_ok hr]
    exact hrest

/-! ## A timer that was canceled -/

theorem update_released {c : Cell} {j : ℕ} (h : q.heap timer = .released)
    (hc : j = timer → c = .released) : Function.update q.heap j c timer = .released := by
  by_cases hj : timer = j
  · subst hj
    rw [Function.update_self]
    exact hc rfl
  · rw [Function.update_of_ne hj]
    exact h

theorem insertInLoop_heap (hq' : q.insertInLoop now e = .ok q') : q'.heap = q.heap := by
  obtain ⟨-, rfl⟩ := insertInLoop_ok hq'
  rw [setIfFirst]
  split <;> rfl

theorem settle_released {j : ℕ} (hq' : q.settle j = .ok q') (h : q.heap timer = .released) :
    q'.heap timer = .released := by
  obtain ⟨t, ht, ⟨-, hq'⟩ | ⟨-, rfl⟩⟩ := settle_ok hq'
  · obtain ⟨-, -, -, hheap, -⟩ := insert_frame hq'
    rw [hheap]
    refine update_released h ?_
    rintro rfl
    exact absurd (h.symm.trans ht) nofun
  · exact update_released h fun _ ↦ rfl

/-- What was released stays so. -/
theorem step_released (hq' : TimerQueue.step q i = .ok q') (h : q.heap timer = .released) :
    q'.heap timer = .released := by
  -- `new` takes a cell that was not in use
  have hwrite {j : ℕ} (hnew : q.heap j = .unused) (t : Timer) :
      (q.write j t).heap timer = .released := by
    refine update_released h ?_
    rintro rfl
    exact absurd (h.symm.trans hnew) (by simp)
  -- and `delete` one that lives
  have hcancel {p p' : TimerQueue} {j : ℕ} (hheap : p.heap = q.heap)
      (hp : p.cancelInLoop j = .ok p') : p'.heap timer = .released := by
    obtain ⟨t, -, rfl⟩ := cancelInLoop_ok hp
    refine update_released ?_ fun _ ↦ rfl
    change p.heap timer = .released
    rw [hheap, h]
  cases i with
  | addTimer thread j when interval now =>
    cases thread with
    | loop =>
      obtain ⟨hnew, hq'⟩ := addTimer_loop_ok hq'
      rw [insertInLoop_heap hq']
      exact hwrite hnew _
    | other =>
      obtain ⟨hnew, rfl⟩ := addTimer_other_ok hq'
      exact hwrite hnew _
  | cancelTimer thread j =>
    cases thread with
    | loop => exact hcancel rfl (ite_eq_ok.mp hq').2
    | other =>
      obtain rfl := Except.ok.inj hq'
      exact h
  | pending now =>
    obtain ⟨f, fs, -, -, hq'⟩ := pending_ok hq'
    cases f with
    | insert when j =>
      rw [insertInLoop_heap hq']
      exact h
    | cancel j => exact hcancel (p := { q with pendingFunctors := fs }) rfl hq'
  | handleRead now =>
    obtain ⟨-, rfl⟩ := handleRead_ok hq'
    exact h
  | next =>
    obtain ⟨now, e, rest, t, -, -, -, ⟨-, rfl⟩ | ⟨-, hq'⟩⟩ := next_ok hq'
    · exact h
    · exact settle_released hq' h
  | callbackReturns =>
    obtain ⟨now, e, rest, -, hq'⟩ := callbackReturns_ok hq'
    exact settle_released hq' h
  | finish now =>
    obtain ⟨begun, -, ⟨-, rfl⟩ | ⟨e, -, rfl⟩⟩ := finish_ok hq'
    · exact h
    · exact h

/-- A timer whose callback is entered lives. -/
theorem Owned.ran_live (h : Owned q) {r : Ran} (hr : r ∈ ran q i) :
    ∃ t, q.heap r.1.2 = .live t := by
  cases i with
  | next =>
    rw [ran] at hr
    split at hr
    · rename_i q' hq'
      obtain ⟨now, e, rest, hbatch, -, rfl⟩ := h.next_ok hq'
      obtain rfl := List.mem_singleton.mp hr
      obtain ⟨t, ht, -⟩ := h.live e (by
        rw [entries, hbatch]
        exact List.mem_append_left _ (List.mem_append_right _ List.mem_cons_self))
      exact ⟨t, ht⟩
    · exact absurd hr List.not_mem_nil
  | _ => exact absurd hr List.not_mem_nil

/-- A timer that was released does not run. -/
theorem Owned.trace_released (h : Owned q) (hreleased : q.heap timer = .released)
    (hprompt : Along TimerQueue.step Prompt q steps) :
    ∀ r ∈ trace TimerQueue.step ran q steps, r.1.2 ≠ timer := by
  induction steps generalizing q with
  | nil => exact fun r hr ↦ absurd hr List.not_mem_nil
  | cons i steps ih =>
    obtain ⟨hi, hprompt⟩ := along_cons.mp hprompt
    intro r hr
    rw [trace] at hr
    rcases List.mem_append.mp hr with hr | hr
    · -- its cell would be both live and released
      rintro rfl
      obtain ⟨t, ht⟩ := h.ran_live hr
      exact absurd (hreleased.symm.trans ht) (by simp)
    · split at hr
      · rename_i q₁ hq₁
        exact ih ((h.step hi).of_ok hq₁) (step_released hq₁ hreleased) (hprompt q₁ hq₁) r hr
      · exact absurd hr List.not_mem_nil

/-! ## The law -/

/-- The law, at the end of a run that has taken these steps and run these callbacks. -/
structure Lawful (past : List Step) (history : List Ran) (q : TimerQueue) : Prop where
  /-- Every entry is listed under the deadline of its timer. -/
  keyed : ∀ e ∈ q.entries, ∃ t, q.heap e.2 = .live t ∧ t.when = e.1
  /-- The timers of the set are listed once each, in the order of their deadlines. -/
  ordered : q.timers.Pairwise (·.1 ≤ ·.1) ∧ (q.timers.map Prod.snd).Nodup
  /-- From one `handleRead` to the next, what runs is what is due at its start, in that order. -/
  batch : ∀ now steps q', (∀ now, .handleRead now ∉ steps) →
    Along step Prompt q (.handleRead now :: steps) →
    run step q (.handleRead now :: steps) = .ok q' →
      trace step ran q (.handleRead now :: steps) ++ q'.toCome =
        (q.timers.filter (·.1 ≤ now)).map fun e ↦ (e, now)
  oneShot : ∀ timer when interval, Added past timer when interval → interval ≤ 0 →
    (runs history timer).length ≤ 1
  /-- A repeating timer that has run `k` times is listed once, under the deadline `k` intervals
  after its first. -/
  repeating : ∀ timer when interval, Added past timer when interval → 0 < interval →
    ¬Canceled past timer → q.batch = none →
      q.timers.filter (·.2 = timer) = [(when + (runs history timer).length * interval, timer)]
  late : ∀ timer when interval, Added past timer when interval → ∀ (k : ℕ) now,
    (runs history timer)[k]? = some now → when + k * interval ≤ now
  /-- A cancellation stops its timer and leaves all others as they are. -/
  cancel : ∀ timer q', q.Pending timer → step q (.cancelTimer .loop timer) = .ok q' →
    (q'.timers = q.timers.filter (·.2 ≠ timer) ∧ q'.batch = q.batch ∧ q'.timerfd = q.timerfd ∧
      ∀ j ≠ timer, q'.heap j = q.heap j) ∧
    ∀ steps, Along step Prompt q' steps → ∀ r ∈ trace step ran q' steps, r.1.2 ≠ timer

theorem Owned.nodup_timers (h : Owned q) : (q.timers.map Prod.snd).Nodup := by
  have howners := (List.nodup_append.mp h.ledger.nodup).1
  rw [owners, entries, List.map_append, List.map_append] at howners
  exact (List.nodup_append.mp (List.nodup_append.mp howners).1).1

/-- In a list of timers that are listed once each, an entry is found by its timer. -/
theorem filter_timer_eq {es : List Entry} (hnodup : (es.map Prod.snd).Nodup) (he : e ∈ es) :
    es.filter (·.2 = e.2) = [e] := by
  have hfilter : es.filter (·.2 = e.2) = es.filter (· = e) := by
    refine List.filter_congr fun e' he' ↦ decide_eq_decide.mpr ⟨fun heq ↦ ?_, fun heq ↦ heq ▸ rfl⟩
    exact List.inj_on_of_nodup_map hnodup he' he heq
  rw [hfilter, List.filter_eq, List.count_eq_one_of_mem hnodup.of_map he, List.replicate_one]

theorem erase_eq_filter_timer {es : List Entry} (hnodup : (es.map Prod.snd).Nodup) (he : e ∈ es) :
    es.erase e = es.filter (·.2 ≠ e.2) := by
  rw [hnodup.of_map.erase_eq_filter]
  refine List.filter_congr fun e' he' ↦ ?_
  rw [Bool.eq_iff_iff, bne_iff_ne, decide_eq_true_iff]
  refine not_congr ⟨fun heq ↦ heq ▸ rfl, fun heq ↦ ?_⟩
  exact List.inj_on_of_nodup_map hnodup he' he heq

theorem Scheduled.lawful (h : Scheduled (Added past) (Canceled past) history q) :
    Lawful past history q where
  keyed e he := (h.known.owned.live e he).imp fun _ ht ↦ ⟨ht.1, ht.2.1⟩
  ordered := ⟨h.known.sorted.imp Entry.key_le, h.known.owned.nodup_timers⟩
  batch _ _ _ hreads hprompt hrun :=
    h.known.owned.trace_handleRead h.known.sorted hprompt hreads hrun
  oneShot := h.once
  repeating timer when interval hadded hpos hopen hbatch := by
    obtain ⟨e, he, rfl⟩ := h.kept timer when interval hadded hopen (Or.inl hpos)
    have hlisted : e ∈ q.timers := by
      rw [h.known.entries_eq, hbatch, batchEntries, List.append_nil] at he
      exact he
    have hkey := (h.waits e (List.mem_append_left _ hlisted) when interval hadded).1
    rw [filter_timer_eq h.known.owned.nodup_timers hlisted, ← hkey]
  late := h.late
  cancel timer q' hpending hq' := by
    obtain ⟨e, he, rfl⟩ := hpending
    have howned : Owned q' :=
      (h.known.owned.step (i := .cancelTimer .loop e.2) ⟨e, he, rfl⟩).of_ok hq'
    obtain ⟨t, ht, rfl⟩ := cancelInLoop_ok (ite_eq_ok.mp hq').2
    obtain ⟨t', ht', hkey, -⟩ := h.known.owned.live e (mem_entries_of_timers he)
    obtain rfl := Cell.live.inj (ht'.symm.trans ht)
    refine ⟨⟨?_, rfl, rfl, fun j hj ↦ Function.update_of_ne hj _ _⟩, fun steps hprompt ↦ ?_⟩
    · rw [hkey]
      exact erase_eq_filter_timer h.known.owned.nodup_timers he
    · exact howned.trace_released (Function.update_self _ _ _) hprompt

/-- **The schedule of the timers.** -/
theorem schedule (hlocal : ∀ i ∈ steps, Local i) (hprompt : Along step Prompt new steps)
    (hrun : run step new steps = .ok q) : Lawful steps (trace step ran new steps) q := by
  have hnew : Scheduled (Added []) (Canceled []) [] new := by
    refine scheduled_new.congr (fun j w d ↦ ?_) fun j ↦ ?_
    · exact iff_of_false (fun ⟨now, hmem⟩ ↦ absurd hmem List.not_mem_nil) id
    · exact iff_of_false List.not_mem_nil id
  exact (hnew.run hlocal hprompt hrun).lawful

/-- A repeating timer and one that runs once; the callback of the first adds a third, and that of
the third cancels the first. -/
theorem schedule_of_three :
    ∃ q, run step new [.addTimer .loop 1 5 10 0, .addTimer .loop 2 6 0 1, .handleRead 8, .next,
        .addTimer .loop 3 9 0 8, .callbackReturns, .next, .callbackReturns, .finish 8,
        .handleRead 12, .next, .cancelTimer .loop 1, .callbackReturns, .finish 13] = .ok q ∧
      Lawful [.addTimer .loop 1 5 10 0, .addTimer .loop 2 6 0 1, .handleRead 8, .next,
          .addTimer .loop 3 9 0 8, .callbackReturns, .next, .callbackReturns, .finish 8,
          .handleRead 12, .next, .cancelTimer .loop 1, .callbackReturns, .finish 13]
        [((5, 1), 8), ((6, 2), 8), ((9, 3), 12)] q :=
  ⟨_, rfl, schedule (by decide) (by decide +kernel) rfl⟩

end TimerQueue

end Twnl
