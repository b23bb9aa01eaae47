import Twnl.TimerQueue.Basic

/-!
# What the steps of a timer queue do

One inversion for each operation: what it found, and what it leaves. The set stays sorted by all of
them, so that `getExpired`, which cuts it where the first key is late enough, takes exactly the
entries that are due (`takeWhile_eq_filter`).
-/

namespace Twnl

/-! ## The order of entries -/

namespace Entry

instance : Std.Total Entry.le where
  total a b := by
    rw [Entry.le, Entry.le]
    omega

instance : IsTrans Entry Entry.le where
  trans a b c hab hbc := by
    rw [Entry.le] at *
    omega

theorem key_le {a b : Entry} (h : a.le b) : a.1 ≤ b.1 := by
  rw [Entry.le] at h
  omega

end Entry

namespace TimerQueue

variable {q q' : TimerQueue} {e : Entry} {es : List Entry} {t : Timer} {timer : ℕ} {now : ℤ}
  {i : Step}

/-- Up to a time, a sorted list of entries has the same entries at its front and in all. -/
theorem takeWhile_eq_filter (h : es.Pairwise Entry.le) (now : ℤ) :
    (es.takeWhile fun e ↦ e.1 < now + 1) = es.filter fun e ↦ e.1 ≤ now := by
  induction es with
  | nil => rfl
  | cons e es ih =>
    obtain ⟨hle, hes⟩ := List.pairwise_cons.mp h
    by_cases hdue : e.1 ≤ now
    · have hlt : e.1 < now + 1 := Int.lt_add_one_of_le hdue
      rw [List.takeWhile_cons_of_pos (by simpa only [decide_eq_true_eq]),
        List.filter_cons_of_pos (by simpa only [decide_eq_true_eq]), ih hes]
    · have hlt : ¬e.1 < now + 1 := fun h ↦ hdue (Int.le_of_lt_add_one h)
      rw [List.takeWhile_cons_of_neg (by simpa only [decide_eq_true_eq]),
        List.filter_cons_of_neg (by simpa only [decide_eq_true_eq])]
      refine (List.filter_eq_nil_iff.mpr fun e' he' ↦ ?_).symm
      have hlate := Entry.key_le (hle e' he')
      simp only [decide_eq_true_eq]
      omega

/-! ## The operations -/

theorem deref_ok (h : q.deref timer = .ok t) : q.heap timer = .live t := by
  rw [deref] at h
  split at h
  · rename_i t' ht'
    rw [ht', Except.ok.inj h]
  all_goals exact absurd h nofun

theorem alloc_ok (h : q.alloc timer t = .ok q') :
    q.heap timer = .unused ∧ q' = q.write timer t := by
  rw [alloc] at h
  split at h
  · rename_i hunused
    exact ⟨hunused, (Except.ok.inj h).symm⟩
  all_goals exact absurd h nofun

/-- The queue after the release of a timer. -/
def freed (q : TimerQueue) (timer : ℕ) : TimerQueue :=
  { q with heap := Function.update q.heap timer .released, released := q.released ++ [timer] }

theorem delete_ok (h : q.delete timer = .ok q') : q' = q.freed timer := by
  rw [delete] at h
  split at h
  · exact (Except.ok.inj h).symm
  all_goals exact absurd h nofun

theorem insertInLoop_ok (h : q.insertInLoop now e = .ok q') :
    e ∉ q.timers ∧
      q' = (q.withTimers (q.timers.orderedInsert Entry.le e)).setIfFirst now e := by
  obtain ⟨⟨⟩, hcheck, h⟩ := bind_eq_ok.mp h
  have hnew := check_eq_ok.mp hcheck
  rw [insert, if_neg hnew] at h
  exact ⟨hnew, (Except.ok.inj h).symm⟩

theorem cancelInLoop_ok (h : q.cancelInLoop timer = .ok q') :
    ∃ t, q.heap timer = .live t ∧
      q' = (q.withTimers (q.timers.erase (t.when, timer))).freed timer := by
  obtain ⟨t, ht, h⟩ := bind_eq_ok.mp h
  obtain ⟨t', ht', h⟩ := bind_eq_ok.mp h
  obtain ⟨⟨⟩, -, ht'⟩ := bind_eq_ok.mp ht'
  obtain rfl := Except.ok.inj ht'
  refine ⟨t, deref_ok ht, (delete_ok h).trans ?_⟩
  rw [freed, freed]
  congr 1
  exact Function.update_idem _ _ _

theorem settle_ok (h : q.settle timer = .ok q') :
    ∃ t, q.heap timer = .live t ∧
      ((t.canceled = false ∧ t.repeats = true) ∧
          q' = (q.write timer { t with when := t.when + t.interval }).insert
            (t.when + t.interval, timer) ∨
        ¬(t.canceled = false ∧ t.repeats = true) ∧ q' = q.freed timer) := by
  obtain ⟨t, ht, h⟩ := bind_eq_ok.mp h
  refine ⟨t, deref_ok ht, ?_⟩
  split at h
  · rename_i hrepeats
    obtain ⟨t', ht', h⟩ := bind_eq_ok.mp h
    obtain ⟨⟨⟩, -, ht'⟩ := bind_eq_ok.mp ht'
    obtain rfl := Except.ok.inj ht'
    exact Or.inl ⟨hrepeats, (Except.ok.inj h).symm⟩
  · rename_i hends
    exact Or.inr ⟨hends, delete_ok h⟩

theorem handleRead_ok (h : q.handleRead now = .ok q') :
    q.batch = none ∧ q' = ((q.timerfdRead now).withBatch
      (some ⟨now, none, q.timers.takeWhile fun e ↦ e.1 < now + 1⟩)).withTimers
      (q.timers.dropWhile fun e ↦ e.1 < now + 1) := by
  rw [handleRead] at h
  split at h
  · rename_i hbatch
    exact ⟨hbatch, (Except.ok.inj h).symm⟩
  · exact absurd h nofun

theorem next_ok (h : q.next = .ok q') :
    ∃ now e rest t, q.batch = some ⟨now, none, e :: rest⟩ ∧ q.heap e.2 = .live t ∧ t.when ≤ now ∧
      (t.canceled = false ∧ q' = q.withBatch (some ⟨now, some e, rest⟩) ∨
        t.canceled = true ∧ (q.withBatch (some ⟨now, none, rest⟩)).settle e.2 = .ok q') := by
  rw [next] at h
  split at h
  · rename_i now e rest hbatch
    obtain ⟨t, ht, h⟩ := bind_eq_ok.mp h
    obtain ⟨⟨⟩, hexpired, h⟩ := bind_eq_ok.mp h
    refine ⟨now, e, rest, t, hbatch, deref_ok ht, check_eq_ok.mp hexpired, ?_⟩
    split at h
    · rename_i hopen
      exact Or.inl ⟨hopen, (Except.ok.inj h).symm⟩
    · rename_i hcanceled
      exact Or.inr ⟨Bool.not_eq_false _ ▸ hcanceled, h⟩
  all_goals exact absurd h nofun

theorem callbackReturns_ok (h : q.callbackReturns = .ok q') :
    ∃ now e rest, q.batch = some ⟨now, some e, rest⟩ ∧
      (q.withBatch (some ⟨now, none, rest⟩)).settle e.2 = .ok q' := by
  rw [callbackReturns] at h
  split at h
  · exact ⟨_, _, _, ‹_›, h⟩
  all_goals exact absurd h nofun

theorem finish_ok (h : q.finish now = .ok q') :
    ∃ begun, q.batch = some ⟨begun, none, []⟩ ∧
      (q.timers = [] ∧ q' = q.withBatch none ∨
        ∃ e, q.timers.head? = some e ∧ q' = (q.withBatch none).timerfdSet now e.1) := by
  rw [finish] at h
  split at h
  · rename_i begun hbatch htimers
    exact ⟨begun, hbatch, Or.inl ⟨htimers, (Except.ok.inj h).symm⟩⟩
  · rename_i begun e es hbatch htimers
    refine ⟨begun, hbatch, Or.inr ⟨e, ?_, (Except.ok.inj h).symm⟩⟩
    rw [htimers, List.head?_cons]
  all_goals exact absurd h nofun

theorem addTimer_loop_ok {when interval : ℤ}
    (h : step q (.addTimer .loop timer when interval now) = .ok q') :
    q.heap timer = .unused ∧
      (q.write timer (.new when interval)).insertInLoop now (when, timer) = .ok q' := by
  obtain ⟨-, h⟩ := ite_eq_ok.mp h
  obtain ⟨allocated, halloc, h⟩ := bind_eq_ok.mp h
  obtain ⟨hnew, rfl⟩ := alloc_ok halloc
  exact ⟨hnew, h⟩

theorem addTimer_other_ok {when interval : ℤ}
    (h : step q (.addTimer .other timer when interval now) = .ok q') :
    q.heap timer = .unused ∧
      q' = (q.write timer (.new when interval)).queueInLoop (.insert when timer) := by
  obtain ⟨allocated, halloc, h⟩ := bind_eq_ok.mp h
  obtain ⟨hnew, rfl⟩ := alloc_ok halloc
  exact ⟨hnew, (Except.ok.inj h).symm⟩

theorem pending_ok (h : step q (.pending now) = .ok q') :
    ∃ f fs, q.batch = none ∧ q.pendingFunctors = f :: fs ∧
      runFunctor now { q with pendingFunctors := fs } f = .ok q' := by
  rw [step] at h
  split at h
  · rename_i f fs hbatch hfs
    exact ⟨f, fs, hbatch, hfs, h⟩
  all_goals exact absurd h error_ne_ok

/-! ## The set stays sorted -/

def Sorted (q : TimerQueue) : Prop := q.timers.Pairwise Entry.le

theorem setIfFirst_timers (q : TimerQueue) (now : ℤ) (e : Entry) :
    (q.setIfFirst now e).timers = q.timers := by
  rw [setIfFirst]
  split <;> rfl

theorem Sorted.insert (h : q.Sorted) (e : Entry) : (q.insert e).Sorted := by
  rw [TimerQueue.insert]
  split
  · exact h
  · exact List.Pairwise.orderedInsert e q.timers h

theorem Sorted.insertInLoop (h : q.Sorted) (hq' : q.insertInLoop now e = .ok q') : q'.Sorted := by
  obtain ⟨-, rfl⟩ := insertInLoop_ok hq'
  rw [Sorted, setIfFirst_timers]
  exact List.Pairwise.orderedInsert e q.timers h

theorem Sorted.cancelInLoop (h : q.Sorted) (hq' : q.cancelInLoop timer = .ok q') :
    q'.Sorted := by
  obtain ⟨t, -, rfl⟩ := cancelInLoop_ok hq'
  exact h.sublist List.erase_sublist

theorem Sorted.settle (h : q.Sorted) (hq' : q.settle timer = .ok q') : q'.Sorted := by
  obtain ⟨t, -, ⟨-, rfl⟩ | ⟨-, rfl⟩⟩ := settle_ok hq'
  · exact Sorted.insert (q := q.write timer _) h _
  · exact h

theorem Sorted.step (h : q.Sorted) (hq' : TimerQueue.step q i = .ok q') : q'.Sorted := by
  cases i with
  | addTimer thread timer when interval now =>
    cases thread with
    | loop =>
      obtain ⟨-, hq'⟩ := addTimer_loop_ok hq'
      exact Sorted.insertInLoop (q := q.write timer _) h hq'
    | other =>
      obtain ⟨-, rfl⟩ := addTimer_other_ok hq'
      exact h
  | cancelTimer thread timer =>
    cases thread with
    | loop => exact h.cancelInLoop (ite_eq_ok.mp hq').2
    | other =>
      obtain rfl := Except.ok.inj hq'
      exact h
  | pending now =>
    obtain ⟨f, fs, -, -, hq'⟩ := pending_ok hq'
    have hpopped : Sorted { q with pendingFunctors := fs } := h
    cases f with
    | insert when timer => exact hpopped.insertInLoop hq'
    | cancel timer => exact hpopped.cancelInLoop hq'
  | handleRead now =>
    obtain ⟨-, rfl⟩ := handleRead_ok hq'
    exact h.sublist (List.dropWhile_sublist _)
  | next =>
    obtain ⟨now, e, rest, t, -, -, -, ⟨-, rfl⟩ | ⟨-, hq'⟩⟩ := next_ok hq'
    · exact h
    · refine Sorted.settle ?_ hq'
      exact h
  | callbackReturns =>
    obtain ⟨now, e, rest, -, hq'⟩ := callbackReturns_ok hq'
    refine Sorted.settle ?_ hq'
    exact h
  | finish now =>
    obtain ⟨begun, -, ⟨-, rfl⟩ | ⟨e, -, rfl⟩⟩ := finish_ok hq'
    · exact h
    · exact h

end TimerQueue

end Twnl
