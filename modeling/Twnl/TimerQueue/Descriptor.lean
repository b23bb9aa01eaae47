import Twnl.TimerQueue.Steps

/-!
# The timer descriptor

Only the insertion of a first entry and the end of `handleRead` set the descriptor. A cancellation
leaves it as it is, so that it may expire too early, and an expiration that nobody has read may be
discarded when it is set again. It never expires too late: outside of `handleRead` it is readable
or will be by the time the first timer is due, or a millisecond after it was set if that is later
(`neverOversleeps`).

A `ClockedQueue` is a queue with a clock, which its steps read.
-/

namespace Twnl

namespace Timespec

/-- A value that `timerfd_settime` accepts. -/
def Normalised (v : Timespec) : Prop := 0 ≤ v.tvSec ∧ 0 ≤ v.tvNsec ∧ v.tvNsec < 1000000000

/-- The value that disarms the descriptor. -/
def zero : Timespec := ⟨0, 0⟩

end Timespec

namespace Timerfd

/-- The descriptor was set to a value that arms it. -/
def Armed (f : Timerfd) : Prop := f.itValue.Normalised ∧ f.itValue ≠ .zero

/-- The expiration was not read, and is in time for the timer. -/
def InTime (f : Timerfd) (e : Entry) : Prop :=
  f.wasRead = false ∧ f.expiry ≤ max e.1 (f.setAt + 1000000)

variable {f : Timerfd} {e e' : Entry}

/-- What is in time for a timer is in time for those after it. -/
theorem InTime.mono (h : f.InTime e) (hle : e.1 ≤ e'.1) : f.InTime e' :=
  ⟨h.1, h.2.trans (sup_le_sup_right hle _)⟩

theorem Armed.read (h : f.Armed) (now : ℤ) : (f.read now).Armed := by
  rw [Timerfd.read]
  split
  · exact h
  · exact h

end Timerfd

namespace TimerQueue

open Machine

/-- The time a step reads from the clock. -/
def Step.now : Step → Option ℤ
  | .addTimer _ _ _ _ now | .pending now | .handleRead now | .finish now => some now
  | .cancelTimer _ _ | .next | .callbackReturns => none

/-- A queue and the time. -/
structure ClockedQueue where
  clock : ℤ
  queue : TimerQueue

inductive ClockedStep
  /-- Time passes. -/
  | passes (nanoseconds : ℕ)
  | queue (i : Step)
  deriving DecidableEq, Repr

def clockedStep (s : ClockedQueue) : ClockedStep → Except Fault ClockedQueue
  | .passes nanoseconds => .ok { s with clock := s.clock + nanoseconds }
  | .queue i =>
    if ∀ now ∈ i.now, now = s.clock then do
      let queue ← step s.queue i
      .ok { s with queue := queue }
    else .error .impossible

/-- Outside of `handleRead` the descriptor is readable or will be in time for each of the timers,
and what it was set to is a value that arms it. -/
def NeverOversleeps (s : ClockedQueue) : Prop :=
  (s.queue.batch = none → ∀ e ∈ s.queue.timers, ∃ f ∈ s.queue.timerfd,
    f.Readable s.clock ∨ s.clock < f.expiry ∧ f.expiry ≤ max e.1 (f.setAt + 1000000)) ∧
  ∀ f ∈ s.queue.timerfd, f.Armed

variable {q q' : TimerQueue} {e : Entry} {f : Timerfd} {timer : ℕ} {now when : ℤ} {i : Step}
  {s s' : ClockedQueue} {steps : List ClockedStep}

/-! ## Setting the descriptor -/

theorem waitFromNow_eq (now when : ℤ) : waitFromNow now when = max (when - now) 1000000 := by
  rw [waitFromNow]
  split <;> omega

theorem nanoseconds_durationFromNow (now when : ℤ) :
    (durationFromNow now when).nanoseconds = max (when - now) 1000000 := by
  rw [durationFromNow, Timespec.nanoseconds, Int.mul_comm, Int.mul_tdiv_add_tmod, waitFromNow_eq]

theorem expiry_of_set (now when : ℤ) :
    (Timerfd.mk now (durationFromNow now when) false).expiry = max when (now + 1000000) := by
  change now + (durationFromNow now when).nanoseconds = _
  rw [nanoseconds_durationFromNow]
  omega

theorem armed_of_set (now when : ℤ) : (Timerfd.mk now (durationFromNow now when) false).Armed := by
  have hwait : 0 ≤ waitFromNow now when := by
    rw [waitFromNow_eq]
    exact Int.le_trans (by decide) (le_max_right _ _)
  refine ⟨⟨Int.tdiv_nonneg hwait (by decide), Int.tmod_nonneg _ hwait,
    Int.tmod_lt_of_pos _ (by decide)⟩, fun hzero ↦ ?_⟩
  have hns := nanoseconds_durationFromNow now when
  rw [show durationFromNow now when = .zero from hzero] at hns
  change 0 = _ at hns
  omega

/-! ## The invariant -/

structure Punctual (q : TimerQueue) : Prop where
  sorted : q.Sorted
  inTime : q.batch = none → ∀ e ∈ q.timers, ∃ f ∈ q.timerfd, f.InTime e
  armed : ∀ f ∈ q.timerfd, f.Armed

theorem punctual_new : Punctual new := ⟨.nil, fun _ _ h ↦ absurd h List.not_mem_nil, nofun⟩

/-- An entry of a set that is sorted has a key no less than that of the first. -/
theorem exists_first (hsorted : q.Sorted) (he : e ∈ q.timers) :
    ∃ first, q.timers.head? = some first ∧ first.1 ≤ e.1 := by
  rw [Sorted] at hsorted
  cases htimers : q.timers with
  | nil =>
    rw [htimers] at he
    exact absurd he List.not_mem_nil
  | cons first es =>
    rw [htimers] at he hsorted
    refine ⟨first, rfl, ?_⟩
    rcases List.mem_cons.mp he with rfl | he
    · exact Int.le_refl _
    · exact Entry.key_le ((List.pairwise_cons.mp hsorted).1 e he)

/-- The descriptor is set for the first entry. -/
theorem punctual_of_set (hsorted : q.Sorted) (hhead : q.timers.head? = some e)
    (htimers : q'.timers = q.timers)
    (hfd : q'.timerfd = some ⟨now, durationFromNow now e.1, false⟩) : Punctual q' := by
  refine ⟨by rwa [Sorted, htimers], fun _ e' he' ↦ ⟨_, hfd, ?_⟩, fun f hf ↦ ?_⟩
  · obtain ⟨first, hfirst, hle⟩ := exists_first hsorted (htimers ▸ he')
    obtain rfl := Option.some.inj (hfirst.symm.trans hhead)
    exact Timerfd.InTime.mono ⟨rfl, (expiry_of_set now first.1).le⟩ hle
  · obtain rfl := Option.some.inj (hfd.symm.trans hf)
    exact armed_of_set now e.1

/-- A first entry sets the descriptor, and any other is behind one that it is in time for. -/
theorem Punctual.insertInLoop (h : q.Punctual) (hq' : q.insertInLoop now e = .ok q') :
    q'.Punctual := by
  have hsorted := h.sorted.insertInLoop hq'
  obtain ⟨-, rfl⟩ := insertInLoop_ok hq'
  rw [setIfFirst] at hsorted ⊢
  split
  · rename_i hhead
    rw [if_pos hhead] at hsorted
    exact punctual_of_set hsorted hhead rfl rfl
  · rename_i hhead
    rw [if_neg hhead] at hsorted
    refine ⟨hsorted, fun hbatch e' he' ↦ ?_, h.armed⟩
    rcases (List.mem_orderedInsert _).mp he' with rfl | he'
    · obtain ⟨first, hfirst, hle⟩ := exists_first hsorted he'
      have hne : first ≠ e' := by
        rintro rfl
        exact hhead hfirst
      have hmem := ((List.mem_orderedInsert _).mp (List.mem_of_head? hfirst)).resolve_left hne
      obtain ⟨f, hf, hintime⟩ := h.inTime hbatch first hmem
      exact ⟨f, hf, hintime.mono hle⟩
    · exact h.inTime hbatch e' he'

/-- Inside `handleRead` nothing is asked of the descriptor. -/
theorem Punctual.of_batch (h : q.Punctual) (hsorted : q'.Sorted) (hbatch : q'.batch ≠ none)
    (hfd : q'.timerfd = q.timerfd) : q'.Punctual :=
  ⟨hsorted, fun hnone ↦ absurd hnone hbatch, hfd ▸ h.armed⟩

theorem Punctual.cancelInLoop (h : q.Punctual) (hq' : q.cancelInLoop timer = .ok q') :
    q'.Punctual := by
  have hsorted := h.sorted.cancelInLoop hq'
  obtain ⟨t, -, rfl⟩ := cancelInLoop_ok hq'
  exact ⟨hsorted, fun hbatch e he ↦ h.inTime hbatch e (List.mem_of_mem_erase he), h.armed⟩

theorem settle_frame (hq' : q.settle timer = .ok q') :
    q'.batch = q.batch ∧ q'.timerfd = q.timerfd := by
  obtain ⟨t, -, ⟨-, rfl⟩ | ⟨-, rfl⟩⟩ := settle_ok hq'
  · rw [insert]
    split <;> exact ⟨rfl, rfl⟩
  · exact ⟨rfl, rfl⟩

theorem Punctual.settle {b : Batch} (h : q.Punctual) (hsorted : q'.Sorted)
    (hq' : (q.withBatch (some b)).settle timer = .ok q') : q'.Punctual := by
  obtain ⟨hbatch, hfd⟩ := settle_frame hq'
  refine h.of_batch hsorted ?_ hfd
  rw [hbatch]
  exact Option.some_ne_none b

/-- The step lemma. -/
theorem Punctual.step (h : q.Punctual) (hq' : TimerQueue.step q i = .ok q') : q'.Punctual := by
  have hsorted := h.sorted.step hq'
  cases i with
  | addTimer thread timer when interval now =>
    cases thread with
    | loop =>
      obtain ⟨-, hq'⟩ := addTimer_loop_ok hq'
      refine Punctual.insertInLoop ?_ hq'
      exact ⟨h.sorted, h.inTime, h.armed⟩
    | other =>
      obtain ⟨-, rfl⟩ := addTimer_other_ok hq'
      exact ⟨h.sorted, h.inTime, h.armed⟩
  | cancelTimer thread timer =>
    cases thread with
    | loop => exact h.cancelInLoop (ite_eq_ok.mp hq').2
    | other =>
      obtain rfl := Except.ok.inj hq'
      exact ⟨h.sorted, h.inTime, h.armed⟩
  | pending now =>
    obtain ⟨f, fs, -, -, hq'⟩ := pending_ok hq'
    have hpopped : Punctual { q with pendingFunctors := fs } := ⟨h.sorted, h.inTime, h.armed⟩
    cases f with
    | insert when timer => exact hpopped.insertInLoop hq'
    | cancel timer => exact hpopped.cancelInLoop hq'
  | handleRead now =>
    obtain ⟨-, rfl⟩ := handleRead_ok hq'
    -- nothing is promised of the descriptor while a batch runs
    refine ⟨hsorted, fun hnone ↦ absurd hnone (Option.some_ne_none _), fun f hf ↦ ?_⟩
    obtain ⟨f', hf', rfl⟩ := Option.mem_map.mp hf
    exact (h.armed f' hf').read now
  | next =>
    obtain ⟨now, e, rest, t, -, -, -, ⟨-, rfl⟩ | ⟨-, hq'⟩⟩ := next_ok hq'
    · exact h.of_batch hsorted (Option.some_ne_none _) rfl
    · exact h.settle hsorted hq'
  | callbackReturns =>
    obtain ⟨now, e, rest, -, hq'⟩ := callbackReturns_ok hq'
    exact h.settle hsorted hq'
  | finish now =>
    obtain ⟨begun, -, ⟨hnil, rfl⟩ | ⟨e, hhead, rfl⟩⟩ := finish_ok hq'
    · -- no timer is left to be in time for
      refine ⟨hsorted, fun _ e he ↦ ?_, h.armed⟩
      exact absurd (hnil ▸ he) List.not_mem_nil
    · -- the descriptor is set to the first
      exact punctual_of_set h.sorted hhead rfl rfl

theorem Punctual.wakes (h : s.queue.Punctual) : NeverOversleeps s := by
  refine ⟨fun hbatch e he ↦ ?_, h.armed⟩
  obtain ⟨f, hf, hunread, hintime⟩ := h.inTime hbatch e he
  refine ⟨f, hf, ?_⟩
  rcases Int.lt_or_le s.clock f.expiry with hlt | hle
  · exact Or.inr ⟨hlt, hintime⟩
  · exact Or.inl ⟨hle, hunread⟩

/-- **The descriptor never oversleeps.** In every state of every run of a queue whose steps read one
clock, outside of `handleRead` the descriptor is readable, or it is armed and expires no later than
the first timer is due or, if that is later, a millisecond after it was last set; and the values it
is set to are normalised and not zero. -/
theorem neverOversleeps (clock : ℤ) (steps : List ClockedStep) :
    Along clockedStep (fun s i ↦ Outcome (clockedStep s i) NeverOversleeps (fun _ ↦ True))
      ⟨clock, new⟩ steps := by
  have hstep : ∀ s i s', s.queue.Punctual → clockedStep s i = .ok s' → s'.queue.Punctual := by
    intro s i s' h hs'
    cases i with
    | passes nanoseconds =>
      obtain rfl := Except.ok.inj hs'
      exact h
    | queue i =>
      obtain ⟨-, hs'⟩ := ite_eq_ok.mp hs'
      obtain ⟨q', hq', hs'⟩ := bind_eq_ok.mp hs'
      obtain rfl := Except.ok.inj hs'
      exact h.step hq'
  refine Along.guarantee (I := fun s ↦ s.queue.Punctual) (Q := fun _ _ ↦ True)
    (fun s i s' h _ ↦ hstep s i s' h) (fun s i h _ ↦ ?_) (along_of_forall fun _ _ ↦ trivial)
    punctual_new
  exact outcome_of (fun s' hs' ↦ (hstep s i s' h hs').wakes) fun _ _ ↦ trivial

/-- Of two timers one has expired and repeats. After `handleRead` both are in the set, and the
descriptor expires when the first of them is due. -/
example : Outcome (run clockedStep ⟨0, new⟩ [.queue (.addTimer .loop 1 5000000 10000000 0),
      .queue (.addTimer .loop 2 30000000 0 0), .passes 6000000, .queue (.handleRead 6000000),
      .queue .next, .queue .callbackReturns, .queue (.finish 6000000)])
    (fun s ↦ s.queue.timers = [(15000000, 1), (30000000, 2)] ∧ s.queue.batch = none ∧
      s.queue.timerfd.map Timerfd.expiry = some 15000000) fun _ ↦ False := by
  decide

end TimerQueue

end Twnl
