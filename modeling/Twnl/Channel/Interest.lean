import Mathlib.Data.List.Induction
import Twnl.Channel.Basic

/-!
# The interest of a channel

What a channel is meant to say is read off the calls made on it: it is interested in reading when
the last call that concerns reading was `enableReading`, and likewise for writing. In
level-triggered mode the two masks are disjoint and the channel says just that.

In edge-triggered mode both masks contain `EPOLLET`, so that the bit set for one direction answers
the test for the other, and the bit cleared for one direction is lost to the other. The stored
events are the two interests and this third bit, which is set exactly when the last call of all was
an enabling one (`events_after`). The tests therefore give the right answers exactly when both
directions are wanted or neither is (`interest_iff`).
-/

namespace Twnl

namespace Channel

namespace Call

def concernsReading : Call → Bool
  | enableReading | disableReading | disableAll => true
  | enableWriting | disableWriting => false

def concernsWriting : Call → Bool
  | enableWriting | disableWriting | disableAll => true
  | enableReading | disableReading => false

def enables : Call → Bool
  | enableReading | enableWriting => true
  | disableReading | disableWriting | disableAll => false

/-- The call that switches reading on or off. -/
def read : Bool → Call
  | true => enableReading
  | false => disableReading

/-- The call that switches writing on or off. -/
def write : Bool → Call
  | true => enableWriting
  | false => disableWriting

end Call

/-- The last call that concerns reading was `enableReading`. -/
def wantsReading (calls : List Call) : Bool :=
  (calls.filter Call.concernsReading).getLast? == some .enableReading

/-- The last call that concerns writing was `enableWriting`. -/
def wantsWriting (calls : List Call) : Bool :=
  (calls.filter Call.concernsWriting).getLast? == some .enableWriting

/-- The last call of all was an enabling one. -/
def endsEnabling (calls : List Call) : Bool := calls.getLast?.any Call.enables

/-- A fresh channel after `calls`, under the masks of `m`. -/
def after (m : Mode) (ptr : ℕ) (fd : ℤ) (calls : List Call) : Channel :=
  calls.foldl (call (Masks.initDefaultEvent m)) (new ptr fd)

variable (m : Mode) (ptr : ℕ) (fd : ℤ) (calls : List Call)

theorem after_concat (a : Call) : after m ptr fd (calls ++ [a])
    = (after m ptr fd calls).call (Masks.initDefaultEvent m) a := by
  rw [after, after, List.foldl_append, List.foldl_cons, List.foldl_nil]

theorem wantsReading_concat (a : Call) : wantsReading (calls ++ [a])
    = if a.concernsReading then a == .enableReading else wantsReading calls := by
  rw [wantsReading, wantsReading, List.filter_append]
  cases a <;> simp [Call.concernsReading]

theorem wantsWriting_concat (a : Call) : wantsWriting (calls ++ [a])
    = if a.concernsWriting then a == .enableWriting else wantsWriting calls := by
  rw [wantsWriting, wantsWriting, List.filter_append]
  cases a <;> simp [Call.concernsWriting]

theorem endsEnabling_concat (a : Call) : endsEnabling (calls ++ [a]) = a.enables := by
  simp [endsEnabling]

/-! ## The stored events -/

/-- The event bits of an interest in reading, one in writing, and the edge bit. -/
def bits (reading writing edge : Bool) : Mask :=
  (if reading then EPOLLIN ||| EPOLLPRI else 0) ||| (if writing then EPOLLOUT else 0) |||
    (if edge then EPOLLET else 0)

/-- The events after a call depend on the events before it only. -/
theorem call_events_congr (k : Masks) (a : Call) {c d : Channel} (h : c.events = d.events) :
    (c.call k a).events = (d.call k a).events := by
  cases a <;> simp only [call, enableReading, disableReading, enableWriting, disableWriting,
    disableAll, h]

/-- One call on such bits. -/
theorem call_bits (a : Call) : ∀ reading writing edge : Bool, (edge = true → m = .ET) →
    (call (Masks.initDefaultEvent m) ⟨0, 0, bits reading writing edge, 0, 0⟩ a).events =
      bits (if a.concernsReading then a == .enableReading else reading)
        (if a.concernsWriting then a == .enableWriting else writing)
        (m == .ET && a.enables) := by
  cases m <;> cases a <;> decide

/-- **What is stored.** The two interests, and in edge-triggered mode the edge bit of the last
call. -/
theorem events_after : (after m ptr fd calls).events
    = bits (wantsReading calls) (wantsWriting calls) (m == .ET && endsEnabling calls) := by
  induction calls using List.reverseRecOn with
  | nil => cases m <;> rfl
  | append_singleton calls a ih =>
    rw [after_concat, call_events_congr (d := ⟨0, 0, _, 0, 0⟩) _ a ih, wantsReading_concat,
      wantsWriting_concat, endsEnabling_concat]
    exact call_bits m a _ _ _ fun h ↦ eq_of_beq (Bool.and_eq_true_iff.mp h).1

theorem isReading_after : (after m ptr fd calls).isReading (Masks.initDefaultEvent m)
    = (wantsReading calls || (m == .ET && endsEnabling calls)) := by
  rw [isReading, events_after]
  cases m <;> generalize wantsReading calls = r <;> generalize wantsWriting calls = w <;>
    generalize endsEnabling calls = e <;> revert r w e <;> decide

theorem isWriting_after : (after m ptr fd calls).isWriting (Masks.initDefaultEvent m)
    = (wantsWriting calls || (m == .ET && endsEnabling calls)) := by
  rw [isWriting, events_after]
  cases m <;> generalize wantsReading calls = r <;> generalize wantsWriting calls = w <;>
    generalize endsEnabling calls = e <;> revert r w e <;> decide

theorem isNoneEvent_after : (after m ptr fd calls).isNoneEvent (Masks.initDefaultEvent m)
    = (!wantsReading calls && !wantsWriting calls && !(m == .ET && endsEnabling calls)) := by
  rw [isNoneEvent, events_after]
  cases m <;> generalize wantsReading calls = r <;> generalize wantsWriting calls = w <;>
    generalize endsEnabling calls = e <;> revert r w e <;> decide

/-- The edge bit is stored exactly when the last call was an enabling one in edge-triggered
mode. -/
theorem edge_after : ((after m ptr fd calls).events &&& EPOLLET != 0)
    = (m == .ET && endsEnabling calls) := by
  rw [events_after]
  cases m <;> generalize wantsReading calls = r <;> generalize wantsWriting calls = w <;>
    generalize endsEnabling calls = e <;> revert r w e <;> decide

variable {calls}

/-- An enabling call leaves an interest behind. -/
theorem wants_of_endsEnabling (h : endsEnabling calls = true) :
    wantsReading calls = true ∨ wantsWriting calls = true := by
  induction calls using List.reverseRecOn with
  | nil => exact absurd h (by decide)
  | append_singleton calls a _ =>
    rw [endsEnabling_concat] at h
    rw [wantsReading_concat, wantsWriting_concat]
    cases a with
    | enableReading => exact Or.inl rfl
    | enableWriting => exact Or.inr rfl
    | disableReading | disableWriting | disableAll => exact absurd h (by decide)

/-- After a disabling call at most one of the two interests is left. -/
theorem endsEnabling_of_wants (hr : wantsReading calls = true) (hw : wantsWriting calls = true) :
    endsEnabling calls = true := by
  induction calls using List.reverseRecOn with
  | nil => exact absurd hr (by decide)
  | append_singleton calls a _ =>
    rw [wantsReading_concat] at hr
    rw [wantsWriting_concat] at hw
    rw [endsEnabling_concat]
    cases a with
    | enableReading | enableWriting => rfl
    | disableReading | disableAll => exact absurd hr (by simp [Call.concernsReading])
    | disableWriting => exact absurd hw (by simp [Call.concernsWriting])

/-! ## When the tests are right -/

/-- The tests on a channel after `calls` say what the calls say, and an edge-triggered channel that
is watched at all is watched edge-triggered. -/
structure Consistent (m : Mode) (ptr : ℕ) (fd : ℤ) (calls : List Call) : Prop where
  reading : (after m ptr fd calls).isReading (Masks.initDefaultEvent m) = wantsReading calls
  writing : (after m ptr fd calls).isWriting (Masks.initDefaultEvent m) = wantsWriting calls
  none : (after m ptr fd calls).isNoneEvent (Masks.initDefaultEvent m)
    = (!(after m ptr fd calls).isReading (Masks.initDefaultEvent m)
      && !(after m ptr fd calls).isWriting (Masks.initDefaultEvent m))
  edge : m = .ET → (after m ptr fd calls).isNoneEvent (Masks.initDefaultEvent m) = false →
    (after m ptr fd calls).events &&& EPOLLET ≠ 0

theorem consistent_iff (calls : List Call) :
    Consistent m ptr fd calls ↔ m = .LT ∨ wantsReading calls = wantsWriting calls := by
  have hends : endsEnabling calls = true → _ := wants_of_endsEnabling
  have hboth : wantsReading calls = true → _ → _ := endsEnabling_of_wants
  constructor
  · intro h
    cases m with
    | LT => exact Or.inl rfl
    | ET =>
      -- the edge bit answers both tests, so it is there only with both interests
      have hr := h.reading
      have hw := h.writing
      have hedge := h.edge rfl
      rw [isReading_after] at hr
      rw [isWriting_after] at hw
      rw [isNoneEvent_after, ← bne_iff_ne, edge_after] at hedge
      right
      revert hr hw hedge hends hboth
      generalize wantsReading calls = r
      generalize wantsWriting calls = w
      generalize endsEnabling calls = e
      revert r w e
      decide
  · intro h
    have hbits : (m == .ET && endsEnabling calls) = true →
        wantsReading calls = true ∧ wantsWriting calls = true := by
      intro hm
      obtain ⟨hET, hlast⟩ := Bool.and_eq_true_iff.mp hm
      have heq := h.resolve_left (by rw [eq_of_beq hET]; decide)
      rcases hends hlast with hr | hw
      · exact ⟨hr, heq ▸ hr⟩
      · exact ⟨heq ▸ hw, hw⟩
    have hedge : m = .ET → wantsReading calls = wantsWriting calls := fun hm ↦
      h.resolve_left (by rw [hm]; decide)
    refine ⟨?_, ?_, ?_, ?_⟩
    · rw [isReading_after]
      cases hm : (m == .ET && endsEnabling calls) with
      | false => exact Bool.or_false _
      | true => rw [(hbits hm).1, Bool.or_true]
    · rw [isWriting_after]
      cases hm : (m == .ET && endsEnabling calls) with
      | false => exact Bool.or_false _
      | true => rw [(hbits hm).2, Bool.or_true]
    · rw [isNoneEvent_after, isReading_after, isWriting_after]
      generalize wantsReading calls = r
      generalize wantsWriting calls = w
      generalize (m == Mode.ET && endsEnabling calls) = e
      revert r w e
      decide
    · intro hm hnone
      rw [isNoneEvent_after] at hnone
      rw [← bne_iff_ne, edge_after]
      have heq := hedge hm
      subst hm
      revert hnone heq hboth
      generalize wantsReading calls = r
      generalize wantsWriting calls = w
      generalize endsEnabling calls = e
      revert r w e
      decide

/-- A read call leaves the answer about writing as it is unless it moves the edge bit and writing
is not wanted. -/
theorem isWriting_read_iff (calls : List Call) (on : Bool) :
    (after m ptr fd (calls ++ [.read on])).isWriting (Masks.initDefaultEvent m)
        = (after m ptr fd calls).isWriting (Masks.initDefaultEvent m) ↔
      m = .LT ∨ wantsWriting calls = true ∨ on = endsEnabling calls := by
  have hkeep : (Call.read on).concernsWriting = false := by cases on <;> rfl
  have hon : (Call.read on).enables = on := by cases on <;> rfl
  rw [isWriting_after, isWriting_after, wantsWriting_concat, endsEnabling_concat, hkeep, hon,
    if_neg Bool.false_ne_true]
  generalize wantsWriting calls = w
  generalize endsEnabling calls = e
  revert w e on
  cases m <;> decide

/-- The same for a write call and the answer about reading. -/
theorem isReading_write_iff (calls : List Call) (on : Bool) :
    (after m ptr fd (calls ++ [.write on])).isReading (Masks.initDefaultEvent m)
        = (after m ptr fd calls).isReading (Masks.initDefaultEvent m) ↔
      m = .LT ∨ wantsReading calls = true ∨ on = endsEnabling calls := by
  have hkeep : (Call.write on).concernsReading = false := by cases on <;> rfl
  have hon : (Call.write on).enables = on := by cases on <;> rfl
  rw [isReading_after, isReading_after, wantsReading_concat, endsEnabling_concat, hkeep, hon,
    if_neg Bool.false_ne_true]
  generalize wantsReading calls = r
  generalize endsEnabling calls = e
  revert r e on
  cases m <;> decide

/-- **The interest algebra.** After any calls, the tests are right in level-triggered mode, and in
edge-triggered mode exactly when both directions are wanted or neither is. A call on one direction
leaves the answer about the other as it is in level-triggered mode, and in edge-triggered mode
exactly when the other is wanted or the call enables just as the one before it did. -/
theorem interest_iff (calls : List Call) :
    (Consistent m ptr fd calls ↔ m = .LT ∨ wantsReading calls = wantsWriting calls) ∧
      (∀ on, (after m ptr fd (calls ++ [.read on])).isWriting (Masks.initDefaultEvent m)
          = (after m ptr fd calls).isWriting (Masks.initDefaultEvent m) ↔
        m = .LT ∨ wantsWriting calls = true ∨ on = endsEnabling calls) ∧
      ∀ on, (after m ptr fd (calls ++ [.write on])).isReading (Masks.initDefaultEvent m)
          = (after m ptr fd calls).isReading (Masks.initDefaultEvent m) ↔
        m = .LT ∨ wantsReading calls = true ∨ on = endsEnabling calls :=
  ⟨consistent_iff m ptr fd calls, isWriting_read_iff m ptr fd calls,
    isReading_write_iff m ptr fd calls⟩

/-- In edge-triggered mode a channel that has only been told to read takes itself to be writing. -/
theorem not_consistent_enableReading : ¬Consistent .ET 0 5 [.enableReading] ∧
    wantsWriting [.enableReading] = false ∧
    (after .ET 0 5 [.enableReading]).isWriting (Masks.initDefaultEvent .ET) = true := by
  refine ⟨fun h ↦ ?_, by decide, by decide⟩
  exact absurd h.writing (by decide)

end Channel

end Twnl
