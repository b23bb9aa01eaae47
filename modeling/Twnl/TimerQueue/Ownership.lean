import Mathlib.Data.List.TakeWhile
import Twnl.Machine.Ledger
import Twnl.TimerQueue.Basic

/-!
# Who owns a timer

A timer that was added has one owner at each time: its entry in the set, its entry in the batch, or
the functor that will insert it; and when it is released, nothing refers to it any more. That is so
in every run whose cancellations are *prompt*: when the body of `cancelTimer` runs, the timer is in
the set (`exclusive_of_prompt`).

The body releases the timer there and then. An entry of a timer that was canceled out of the batch,
its own callback running or still to come, is followed again when `handleRead` gets to it; and a
functor that is still to insert the timer inserts what was released.
-/

namespace Twnl

namespace TimerQueue

open Machine

/-! ## Places -/

/-- The entries of a batch, with that whose callback runs. -/
def batchEntries : Option Batch → List Entry
  | none => []
  | some b => b.current.toList ++ b.rest

/-- The entries that queued functors will insert. -/
def queuedEntries (fs : List TimerFunctor) : List Entry :=
  fs.filterMap fun
    | .insert when timer => some (when, timer)
    | .cancel _ => none

/-- The entries of all places. -/
def entries (q : TimerQueue) : List Entry :=
  q.timers ++ batchEntries q.batch ++ queuedEntries q.pendingFunctors

def owners (q : TimerQueue) : List ℕ := q.entries.map Prod.snd

/-- The entries that are still to come are due. -/
def Due (q : TimerQueue) : Prop := ∀ b ∈ q.batch, ∀ e ∈ b.rest, e.1 ≤ b.now

/-- The invariant: each timer in use has one owner or was released, and what an owner refers to
lives, under the key it is listed by, and was not canceled. -/
structure Owned (q : TimerQueue) : Prop where
  ledger : Ledger q.owners q.released (fun i ↦ q.heap i ≠ .unused)
  live : ∀ e ∈ q.entries, ∃ t, q.heap e.2 = .live t ∧ t.when = e.1 ∧ t.canceled = false
  due : q.Due

variable {q q' : TimerQueue} {e e' : Entry} {es : List Entry} {t : Timer} {timer : ℕ} {now : ℤ}
  {i : Step}

theorem owned_new : Owned new := by
  refine ⟨⟨List.nodup_nil, ?_⟩, fun e he ↦ absurd he List.not_mem_nil, fun b hb ↦ absurd hb nofun⟩
  intro i
  exact iff_of_false (fun hused ↦ hused rfl) List.not_mem_nil

/-! ## What may happen to an entry -/

/-- Entries are moved from place to place. -/
theorem Owned.move (h : Owned q) (hperm : q'.entries.Perm q.entries) (hheap : q'.heap = q.heap)
    (hreleased : q'.released = q.released) (hdue : q'.Due) : Owned q' := by
  refine ⟨?_, ?_, hdue⟩
  · rw [hheap, hreleased]
    exact h.ledger.move (hperm.map Prod.snd)
  · intro e he
    rw [hheap]
    exact h.live e (hperm.mem_iff.mp he)

/-- A timer is made and listed. -/
theorem Owned.take (h : Owned q) (hnew : q.heap e.2 = .unused) (hkey : t.when = e.1)
    (hopen : t.canceled = false) (hperm : q'.entries.Perm (e :: q.entries))
    (hheap : q'.heap = Function.update q.heap e.2 (.live t)) (hreleased : q'.released = q.released)
    (hdue : q'.Due) : Owned q' := by
  refine ⟨?_, ?_, hdue⟩
  · rw [hheap, hreleased]
    refine h.ledger.take (not_not_intro hnew) (hperm.map Prod.snd) ?_
    intro j
    by_cases hj : j = e.2
    · subst hj
      rw [Function.update_self]
      exact iff_of_true nofun (Or.inl rfl)
    · rw [Function.update_of_ne hj]
      exact (or_iff_right hj).symm
  · intro e' he'
    rw [hheap]
    rcases List.mem_cons.mp (hperm.mem_iff.mp he') with rfl | he'
    · exact ⟨t, Function.update_self _ _ _, hkey, hopen⟩
    · obtain ⟨t', ht', hlive⟩ := h.live e' he'
      -- its cell is in use
      have hne : e'.2 ≠ e.2 := by
        intro heq
        rw [heq, hnew] at ht'
        exact absurd ht' nofun
      exact ⟨t', by rw [Function.update_of_ne hne, ht'], hlive⟩

/-- Whoever else is listed is another. -/
theorem Owned.ne_of_perm (h : Owned q) (hperm : q.entries.Perm (e :: es)) (he' : e' ∈ es) :
    e'.2 ≠ e.2 := by
  have hnodup := (hperm.map Prod.snd).nodup_iff.mp (List.nodup_append.mp h.ledger.nodup).1
  intro heq
  exact (List.nodup_cons.mp hnodup).1 (heq ▸ List.mem_map_of_mem he')

/-- A timer that is listed is still in use after anything is written to its address. -/
theorem used_update {c : Cell} (hlive : q.heap timer ≠ .unused) (hc : c ≠ .unused) (j : ℕ) :
    Function.update q.heap timer c j ≠ .unused ↔ q.heap j ≠ .unused := by
  by_cases hj : j = timer
  · subst hj
    rw [Function.update_self]
    exact iff_of_true hc hlive
  · rw [Function.update_of_ne hj]

/-- An entry is struck off and its timer released. -/
theorem Owned.release (h : Owned q) (hperm : q.entries.Perm (e :: q'.entries))
    (hheap : q'.heap = Function.update q.heap e.2 .released)
    (hreleased : q'.released = q.released ++ [e.2]) (hdue : q'.Due) : Owned q' := by
  obtain ⟨t, ht, -⟩ := h.live e (hperm.mem_iff.mpr List.mem_cons_self)
  have hused : q.heap e.2 ≠ .unused := by
    rw [ht]
    exact nofun
  have hledger := h.ledger.release (hperm.map Prod.snd)
  refine ⟨⟨hreleased ▸ hledger.nodup, ?_⟩, ?_, hdue⟩
  · intro j
    rw [hheap, hreleased, used_update hused (show Cell.released ≠ .unused from nofun)]
    exact hledger.used_iff j
  · intro e' he'
    obtain ⟨t', ht', hlive⟩ := h.live e' (hperm.mem_iff.mpr (List.mem_cons_of_mem e he'))
    exact ⟨t', by rw [hheap, Function.update_of_ne (h.ne_of_perm hperm he'), ht'], hlive⟩

/-- An entry gets another key, with its timer. -/
theorem Owned.rekey (h : Owned q) (hperm : q.entries.Perm (e :: es))
    (hperm' : q'.entries.Perm ((t.when, e.2) :: es)) (hopen : t.canceled = false)
    (hheap : q'.heap = Function.update q.heap e.2 (.live t)) (hreleased : q'.released = q.released)
    (hdue : q'.Due) : Owned q' := by
  obtain ⟨t', ht', -⟩ := h.live e (hperm.mem_iff.mpr List.mem_cons_self)
  have hused : q.heap e.2 ≠ .unused := by
    rw [ht']
    exact nofun
  have howners : q'.owners.Perm q.owners :=
    (hperm'.map Prod.snd).trans (hperm.map Prod.snd).symm
  have hledger := h.ledger.move howners
  refine ⟨⟨hreleased ▸ hledger.nodup, ?_⟩, ?_, hdue⟩
  · intro j
    rw [hheap, hreleased, used_update hused (show Cell.live t ≠ .unused from nofun)]
    exact hledger.used_iff j
  · intro e' he'
    rw [hheap]
    rcases List.mem_cons.mp (hperm'.mem_iff.mp he') with rfl | he'
    · exact ⟨t, Function.update_self _ _ _, rfl, hopen⟩
    · obtain ⟨t'', ht'', hlive⟩ := h.live e' (hperm.mem_iff.mpr (List.mem_cons_of_mem e he'))
      exact ⟨t'', by rw [Function.update_of_ne (h.ne_of_perm hperm he'), ht''], hlive⟩

/-! ## The operations -/

theorem deref_of_live (h : q.heap timer = .live t) : q.deref timer = .ok t := by
  rw [deref, h]

theorem delete_of_live (h : q.heap timer = .live t) : q.delete timer = .ok { q with
    heap := Function.update q.heap timer .released, released := q.released ++ [timer] } := by
  rw [delete, h]

theorem insert_perm (h : e ∉ q.timers) : (q.insert e).entries.Perm (e :: q.entries) := by
  rw [insert, if_neg h]
  exact ((List.perm_orderedInsert _ e q.timers).append_right _).append_right _

theorem insert_eq (q : TimerQueue) (e : Entry) :
    ∃ timers, q.insert e = q.withTimers timers := by
  rw [insert]
  split
  · exact ⟨q.timers, rfl⟩
  · exact ⟨_, rfl⟩

theorem Owned.timerfdSet (h : Owned q) (now when : ℤ) : Owned (q.timerfdSet now when) :=
  ⟨h.ledger, h.live, h.due⟩

theorem Owned.setIfFirst (h : Owned q) (now : ℤ) (e : Entry) : Owned (q.setIfFirst now e) := by
  rw [TimerQueue.setIfFirst]
  split
  · exact h.timerfdSet now e.1
  · exact h

theorem mem_entries_of_timers (he : e ∈ q.timers) : e ∈ q.entries :=
  List.mem_append_left _ (List.mem_append_left _ he)

/-- Canceling a timer that is in the set takes it out and releases it. -/
theorem Owned.cancelInLoop (h : Owned q) (he : e ∈ q.timers) :
    Outcome (q.cancelInLoop e.2) Owned (fun _ ↦ False) := by
  obtain ⟨t, ht, hkey, hopen⟩ := h.live e (mem_entries_of_timers he)
  rw [TimerQueue.cancelInLoop, deref_of_live ht, bind_ok, Timer.cancel, check_pos hopen, bind_ok,
    bind_ok]
  have hwritten : ((q.write e.2 { t with canceled := true }).withTimers
      (q.timers.erase (t.when, e.2))).heap e.2 = .live { t with canceled := true } :=
    Function.update_self _ _ _
  rw [delete_of_live hwritten, outcome_ok]
  have hperm : q.timers.Perm (e :: q.timers.erase (t.when, e.2)) := by
    rw [hkey]
    exact List.perm_cons_erase he
  refine h.release ((hperm.append_right _).append_right _) ?_ rfl h.due
  exact Function.update_idem _ _ _

/-- After its callback an entry of the batch is inserted under its next key, or released. -/
theorem Owned.settle {rest : List Entry} (h : Owned q)
    (hbatch : q.batch = some ⟨now, some e, rest⟩) :
    Outcome ((q.withBatch (some ⟨now, none, rest⟩)).settle e.2) Owned (fun _ ↦ False) := by
  have hperm : q.entries.Perm (e :: (q.withBatch (some ⟨now, none, rest⟩)).entries) := by
    rw [entries, hbatch, List.append_assoc]
    change (q.timers ++ e :: (rest ++ _)).Perm (e :: (q.timers ++ rest ++ _))
    rw [List.append_assoc]
    exact List.perm_middle
  have hdue : (q.withBatch (some ⟨now, none, rest⟩)).Due := by
    intro b hb e' he'
    obtain rfl := Option.mem_some_iff.mp hb
    exact h.due _ hbatch e' he'
  obtain ⟨t, ht, -, hopen⟩ := h.live e (hperm.mem_iff.mpr List.mem_cons_self)
  have ht' : (q.withBatch (some ⟨now, none, rest⟩)).heap e.2 = .live t := ht
  rw [TimerQueue.settle, deref_of_live ht', bind_ok]
  by_cases hrepeats : t.repeats = true
  · -- its timer is not in the set while its entry is in the batch
    have hnotin : (t.when + t.interval, e.2) ∉ q.timers := by
      intro hmem
      have hmem' : (t.when + t.interval, e.2) ∈
          (q.withBatch (some ⟨now, none, rest⟩)).entries := mem_entries_of_timers hmem
      exact h.ne_of_perm hperm hmem' rfl
    rw [if_pos ⟨hopen, hrepeats⟩, Timer.restart, check_pos hrepeats, bind_ok, bind_ok, outcome_ok]
    refine h.rekey (t := { t with when := t.when + t.interval }) hperm
      (insert_perm (q := (q.withBatch _).write e.2 _) hnotin) hopen ?_ ?_ ?_
    all_goals
      obtain ⟨timers, htimers⟩ := insert_eq ((q.withBatch (some ⟨now, none, rest⟩)).write e.2
        { t with when := t.when + t.interval }) (t.when + t.interval, e.2)
      rw [htimers]
    · rfl
    · rfl
    · exact hdue
  · rw [if_neg (fun hand ↦ hrepeats hand.2), delete_of_live ht', outcome_ok]
    exact h.release hperm rfl rfl hdue

theorem Owned.handleRead (h : Owned q) (now : ℤ) :
    Outcome (q.handleRead now) Owned (· = .impossible) := by
  rw [TimerQueue.handleRead]
  cases hbatch : q.batch with
  | some b => rfl
  | none =>
    refine h.move ?_ rfl rfl ?_
    · -- the batch and what stays in the set make up the set
      rw [entries, entries, hbatch]
      change (q.timers.dropWhile _ ++ q.timers.takeWhile _ ++ _).Perm (q.timers ++ [] ++ _)
      rw [List.append_nil]
      refine List.Perm.append_right _ (List.perm_append_comm.trans ?_)
      rw [List.takeWhile_append_dropWhile]
    · intro b hb e he
      obtain rfl := Option.mem_some_iff.mp hb
      change e ∈ q.timers.takeWhile (fun e ↦ decide (e.1 < now + 1)) at he
      have hlt : decide (e.1 < now + 1) = true :=
        List.mem_takeWhile_imp (p := fun e : Entry ↦ decide (e.1 < now + 1)) he
      exact Int.lt_add_one_iff.mp (of_decide_eq_true hlt)

/-- No timer of the batch is canceled, so that the next callback is entered. -/
theorem Owned.next (h : Owned q) : Outcome q.next Owned (· = .impossible) := by
  rw [TimerQueue.next]
  split
  · rename_i now e rest hbatch
    have hmem : e ∈ q.entries := by
      rw [entries, hbatch]
      exact List.mem_append_left _ (List.mem_append_right _ List.mem_cons_self)
    obtain ⟨t, ht, hkey, hopen⟩ := h.live e hmem
    have hexpired : t.expired now := by
      rw [Timer.expired, hkey]
      exact h.due _ hbatch e List.mem_cons_self
    rw [deref_of_live ht, bind_ok, check_pos hexpired, bind_ok, if_pos hopen, outcome_ok]
    refine h.move ?_ rfl rfl ?_
    · rw [entries, entries, hbatch]
      rfl
    · intro b hb e' he'
      obtain rfl := Option.mem_some_iff.mp hb
      exact h.due _ hbatch e' (List.mem_cons_of_mem e he')
  all_goals rfl

theorem Owned.callbackReturns (h : Owned q) :
    Outcome q.callbackReturns Owned (· = .impossible) := by
  rw [TimerQueue.callbackReturns]
  split
  · rename_i now e rest hbatch
    have hsettle := h.settle hbatch
    refine outcome_of (fun q' hq' ↦ hsettle.of_ok hq') ?_
    intro f hf
    rw [hf] at hsettle
    exact hsettle.elim
  all_goals rfl

theorem Owned.finish (h : Owned q) (now : ℤ) : Outcome (q.finish now) Owned (· = .impossible) := by
  have hended {b : ℤ} (hbatch : q.batch = some ⟨b, none, []⟩) : Owned (q.withBatch none) := by
    refine h.move ?_ rfl rfl fun b hb ↦ absurd hb nofun
    rw [entries, entries, hbatch]
    rfl
  rw [TimerQueue.finish]
  split
  · exact hended ‹_›
  · exact (hended ‹_›).timerfdSet now _
  all_goals rfl

/-! ## One step -/

/-- The timer has its entry in the set. -/
def Pending (q : TimerQueue) (timer : ℕ) : Prop := ∃ e ∈ q.timers, e.2 = timer

/-- If the functor cancels a timer, that is pending. -/
def PromptFunctor (q : TimerQueue) : TimerFunctor → Prop
  | .cancel timer => q.Pending timer
  | .insert _ _ => True

/-- If the step cancels a timer, that is pending: called in the loop's thread, `cancelTimer` cancels
at once, and called in another, when its functor runs. -/
def Prompt (q : TimerQueue) : Step → Prop
  | .cancelTimer .loop timer => q.Pending timer
  | .pending _ => ∀ f ∈ q.pendingFunctors.head?, q.PromptFunctor f
  | .cancelTimer .other _ | .addTimer _ _ _ _ _ | .handleRead _ | .next | .callbackReturns
  | .finish _ => True

instance (q : TimerQueue) (timer : ℕ) : Decidable (q.Pending timer) :=
  inferInstanceAs (Decidable (∃ e ∈ q.timers, _))

instance (q : TimerQueue) : DecidablePred q.PromptFunctor
  | .cancel timer => inferInstanceAs (Decidable (q.Pending timer))
  | .insert _ _ => inferInstanceAs (Decidable True)

instance (q : TimerQueue) : DecidablePred q.Prompt
  | .cancelTimer .loop timer => inferInstanceAs (Decidable (q.Pending timer))
  | .pending _ => inferInstanceAs (Decidable (∀ f ∈ q.pendingFunctors.head?, q.PromptFunctor f))
  | .cancelTimer .other _ | .addTimer _ _ _ _ _ | .handleRead _ | .next | .callbackReturns
  | .finish _ => inferInstanceAs (Decidable True)

/-- Every timer in use has one owner, or was released once. -/
def Exclusive (q : TimerQueue) : Prop :=
  ∀ timer, q.heap timer ≠ .unused → q.owners.count timer + q.released.count timer = 1

theorem Owned.exclusive (h : Owned q) : q.Exclusive := fun _ ↦ h.ledger.count_eq_one

theorem outcome_of_false {x : Except Fault TimerQueue} {P : TimerQueue → Prop} {E : Fault → Prop}
    (h : Outcome x P (fun _ ↦ False)) : Outcome x P E := by
  cases x with
  | ok q => exact h
  | error f => exact h.elim

/-- A new timer and its entry, wherever that is put. -/
theorem outcome_alloc {f : TimerQueue → Except Fault TimerQueue}
    (hf : q.heap e.2 = .unused → Outcome (f (q.write e.2 t)) Owned (· = .impossible)) :
    Outcome (q.alloc e.2 t >>= f) Owned (· = .impossible) := by
  rw [TimerQueue.alloc]
  cases hcell : q.heap e.2 with
  | unused => exact hf hcell
  | live _ | released => rfl

/-- The step lemma. -/
theorem Owned.step (h : Owned q) (hi : q.Prompt i) :
    Outcome (step q i) Owned (· = .impossible) := by
  cases i with
  | addTimer thread timer when interval now =>
    cases thread with
    | loop =>
      rw [TimerQueue.step]
      split
      · refine outcome_alloc (e := (when, timer)) fun hnew ↦ ?_
        -- the assert of `insert`: a timer that was just made is in no entry
        have hnotin : (when, timer) ∉ (q.write (when, timer).2 (.new when interval)).timers := by
          intro hmem
          obtain ⟨t, ht, -⟩ := h.live _ (mem_entries_of_timers hmem)
          exact absurd (hnew.symm.trans ht) nofun
        rw [insertInLoop, check_pos hnotin, bind_ok, outcome_ok]
        obtain ⟨timers, htimers⟩ := insert_eq (q.write timer (.new when interval)) (when, timer)
        have hperm := insert_perm (q := q.write timer (.new when interval)) hnotin
        rw [htimers] at hperm ⊢
        exact (h.take (t := .new when interval) hnew rfl rfl hperm rfl rfl h.due).setIfFirst now _
      · rfl
    | other =>
      refine outcome_alloc (e := (when, timer)) fun hnew ↦ ?_
      refine h.take (t := .new when interval) hnew rfl rfl ?_ rfl rfl h.due
      change (_ ++ queuedEntries (q.pendingFunctors ++ [.insert when timer])).Perm _
      rw [queuedEntries, List.filterMap_append, ← List.append_assoc]
      exact List.perm_append_singleton _ _
  | cancelTimer thread timer =>
    cases thread with
    | loop =>
      obtain ⟨e, he, rfl⟩ := hi
      rw [TimerQueue.step]
      split
      · exact outcome_of_false (h.cancelInLoop he)
      · rfl
    | other =>
      refine h.move ?_ rfl rfl h.due
      change (_ ++ queuedEntries (q.pendingFunctors ++ [.cancel timer])).Perm _
      rw [queuedEntries, List.filterMap_append]
      change (_ ++ (_ ++ [])).Perm _
      rw [List.append_nil]
      exact List.Perm.refl _
  | pending now =>
    rw [TimerQueue.step]
    split
    · rename_i f fs hbatch hfs
      cases f with
      | insert when timer =>
        have hqueued :
            q.entries.Perm ((when, timer) :: entries { q with pendingFunctors := fs }) := by
          rw [entries, hfs]
          exact List.perm_middle
        have hnotin : (when, timer) ∉ q.timers := by
          intro hmem
          have hmem' : (when, timer) ∈ entries { q with pendingFunctors := fs } :=
            mem_entries_of_timers hmem
          exact h.ne_of_perm hqueued hmem' rfl
        change Outcome (insertInLoop _ now (when, timer)) _ _
        rw [insertInLoop, check_pos hnotin, bind_ok, outcome_ok]
        obtain ⟨timers, htimers⟩ := insert_eq { q with pendingFunctors := fs } (when, timer)
        have hperm := insert_perm (q := { q with pendingFunctors := fs }) hnotin
        rw [htimers] at hperm ⊢
        exact (h.move (hperm.trans hqueued.symm) rfl rfl h.due).setIfFirst now _
      | cancel timer =>
        have hhead : q.pendingFunctors.head? = some (.cancel timer) := by
          rw [hfs]
          rfl
        -- the step is prompt: the timer waits in the set when the functor runs
        obtain ⟨e, he, rfl⟩ : q.Pending timer := hi (.cancel timer) hhead
        have hdequeued : Owned { q with pendingFunctors := fs } := by
          refine h.move ?_ rfl rfl h.due
          rw [entries, entries, hfs]
          exact List.Perm.refl _
        exact outcome_of_false (hdequeued.cancelInLoop he)
    all_goals rfl
  | handleRead now => exact h.handleRead now
  | next => exact h.next
  | callbackReturns => exact h.callbackReturns
  | finish now => exact h.finish now

/-! ## Runs -/

/-- Releasing timers that live, each of them once, releases them in turn. -/
theorem foldlM_delete (hlive : ∀ e ∈ es, ∃ t, q.heap e.2 = .live t)
    (hnodup : (es.map Prod.snd).Nodup) :
    ∃ q', es.foldlM (fun p e ↦ p.delete e.2) q = .ok q' ∧
      q'.released = q.released ++ es.map Prod.snd ∧
      ∀ j, q'.heap j ≠ .unused ↔ q.heap j ≠ .unused := by
  induction es generalizing q with
  | nil => exact ⟨q, rfl, (List.append_nil _).symm, fun j ↦ Iff.rfl⟩
  | cons e es ih =>
    obtain ⟨hnew, hnodup⟩ := List.nodup_cons.mp hnodup
    obtain ⟨t, ht⟩ := hlive e List.mem_cons_self
    have hused : q.heap e.2 ≠ .unused := by
      rw [ht]
      exact nofun
    rw [List.foldlM_cons, delete_of_live ht, bind_ok]
    have hlive' : ∀ e' ∈ es, ∃ t, Function.update q.heap e.2 .released e'.2 = .live t := by
      intro e' he'
      obtain ⟨t', ht'⟩ := hlive e' (List.mem_cons_of_mem e he')
      have hne : e'.2 ≠ e.2 := fun heq ↦ hnew (heq ▸ List.mem_map_of_mem he')
      exact ⟨t', (Function.update_of_ne hne _ _).trans ht'⟩
    obtain ⟨q', hq', hreleased, hheap⟩ := ih (q := { q with
      heap := Function.update q.heap e.2 .released, released := q.released ++ [e.2] }) hlive' hnodup
    refine ⟨q', hq', ?_, fun j ↦ (hheap j).trans (used_update hused ?_ j)⟩
    · rw [hreleased, List.map_cons, List.append_assoc]
      rfl
    · exact nofun

/-- Outside of `handleRead`, and with no insertion queued, the destructor releases what is left. -/
theorem Owned.destroy (h : Owned q) (hbatch : q.batch = none)
    (hqueued : queuedEntries q.pendingFunctors = []) :
    ∃ q', q.destroy = .ok q' ∧
      ∀ timer, q'.heap timer ≠ .unused → q'.released.count timer = 1 := by
  have hentries : q.entries = q.timers := by
    rw [entries, hbatch, hqueued, batchEntries, List.append_nil, List.append_nil]
  have hnodup : (q.timers.map Prod.snd ++ q.released).Nodup := by
    rw [← hentries]
    exact h.ledger.nodup
  have hlive : ∀ e ∈ q.timers, ∃ t, q.heap e.2 = .live t := by
    intro e he
    exact (h.live e (mem_entries_of_timers he)).imp fun _ ht ↦ ht.1
  obtain ⟨q', hq', hreleased, hheap⟩ := foldlM_delete hlive (List.nodup_append.mp hnodup).1
  refine ⟨q'.withTimers [], by rw [TimerQueue.destroy, hq']; rfl, ?_⟩
  intro timer hused
  have hcount := h.exclusive timer ((hheap timer).mp hused)
  change q'.released.count timer = 1
  rw [hreleased, List.count_append, ← hentries, Nat.add_comm]
  exact hcount

/-- **Timer ownership.** Along every prompt run of a queue, every timer has one owner or was
released once, and no timer is followed after its release nor any assert false; and the destructor
then releases what was not released, each timer once. -/
theorem exclusive_of_prompt {steps : List Step} (hprompt : Along step Prompt new steps) :
    Along step (fun q i ↦ Outcome (step q i) Exclusive (· = .impossible)) new steps ∧
      ∀ q, run step new steps = .ok q → q.batch = none → queuedEntries q.pendingFunctors = [] →
        ∃ q', q.destroy = .ok q' ∧
          ∀ timer, q'.heap timer ≠ .unused → q'.released.count timer = 1 := by
  have hstep : ∀ q i q', Owned q → Prompt q i → step q i = .ok q' → Owned q' :=
    fun q i q' h hi hq' ↦ (h.step hi).of_ok hq'
  constructor
  · refine Along.guarantee hstep ?_ hprompt owned_new
    intro q i h hi
    exact (h.step hi).imp fun _ h' ↦ h'.exclusive
  · intro q hrun hbatch hqueued
    have h : Owned q := Along.run_inv hstep hprompt owned_new hrun
    exact h.destroy hbatch hqueued

/-- A repeating timer that another thread adds, and a timer that it cancels in its callback; then
the other thread cancels the first. -/
theorem exclusive_of_two :
    Along step (fun q i ↦ Outcome (step q i) Exclusive (· = .impossible)) new
        [.addTimer .other 1 5 10 0, .addTimer .loop 2 20 0 0, .pending 1, .handleRead 6, .next,
          .cancelTimer .loop 2, .callbackReturns, .finish 7, .cancelTimer .other 1, .pending 8,
          .addTimer .other 3 40 0 9, .pending 10] ∧
      ∀ q, run step new
        [.addTimer .other 1 5 10 0, .addTimer .loop 2 20 0 0, .pending 1, .handleRead 6, .next,
          .cancelTimer .loop 2, .callbackReturns, .finish 7, .cancelTimer .other 1, .pending 8,
          .addTimer .other 3 40 0 9, .pending 10] = .ok q →
        q.batch = none → queuedEntries q.pendingFunctors = [] →
        ∃ q', q.destroy = .ok q' ∧
          ∀ timer, q'.heap timer ≠ .unused → q'.released.count timer = 1 :=
  exclusive_of_prompt (by decide +kernel)

/-- A timer is used after its release if its callback cancels it, if it is canceled while its entry
is still to come in the batch, if the cancellation that another thread has queued runs after it was
released, and if it is canceled before its insertion has run. -/
theorem not_exclusive :
    run step new [.addTimer .loop 1 5 10 0, .handleRead 6, .next, .cancelTimer .loop 1,
        .callbackReturns] = .error .useAfterFree ∧
      run step new [.addTimer .loop 1 5 0 0, .addTimer .loop 2 5 0 0, .handleRead 6, .next,
        .cancelTimer .loop 2, .callbackReturns, .next] = .error .useAfterFree ∧
      run step new [.addTimer .loop 1 5 0 0, .handleRead 6, .next, .cancelTimer .other 1,
        .callbackReturns, .finish 7, .pending 8] = .error .useAfterFree ∧
      run step new [.addTimer .other 1 5 0 0, .cancelTimer .loop 1, .pending 1, .handleRead 6,
        .next] = .error .useAfterFree :=
  ⟨rfl, rfl, rfl, rfl⟩

end TimerQueue

end Twnl
