import Mathlib.Logic.Basic
import Mathlib.Data.Nat.Notation

/-!
# What can stop the program

The operations of the model return `Except Fault`. An `assert` of the source is a check: where its
condition is false the run ends with the fault that names it, as it does in a build that keeps the
asserts. A build with `NDEBUG`, as the default one has it, goes on at that point with the condition
false; a run in which no check fails is the same run in both. Where a law depends on what such a
build goes on to, the operations take the `Build` and leave the check to it.
-/

namespace Twnl

/-- The asserts of the source, named after the function they stand in. -/
inductive Site
  | retrieve
  | retrieveUntil
  | ensureWriteBytes
  | hasWritten
  | makeSpace
  | channelRemove
  | epollUpdateChannel
  | pollUpdateChannel
  | pollRemoveChannel
  | pollFillActiveChannels
  | sendInLoop
  | handleClose
  | connectEstablished
  | addTimer
  | timerExpired
  | timerRestart
  | timerCancel
  | startInLoop
  | connecting
  | connectorHandleWrite
  | connectorHandleError
  | removeConnection
  | loop
  | eventLoopDestructor
  | startLoop
  | connectorDestructor
  | logText
  deriving DecidableEq, Repr

/-- The ways a call can fail to return. -/
inductive Fault
  /-- An `assert` whose condition is false. -/
  | assertion (site : Site)
  /-- `std::length_error`, thrown by a container asked for more than its `max_size()`. -/
  | lengthError
  /-- A copy that leaves the storage it is made to. -/
  | outOfBounds
  /-- A pointer that is null where the source follows it. -/
  | nullPointer
  /-- An object that is used, or released again, after its release. -/
  | useAfterFree
  /-- A value that is used before it is set. -/
  | indeterminate
  /-- `LOG_FATAL`, which aborts. -/
  | abort
  /-- A loop that does not end. -/
  | divergence
  /-- An answer that no kernel and no allocator gives, such as a read of more bytes than were asked
  for. No run of the program has it. -/
  | impossible
  deriving DecidableEq, Repr

/-- An `assert` of the source. -/
def check (p : Prop) [Decidable p] (site : Site) : Except Fault Unit :=
  if p then .ok () else .error (.assertion site)

/-- Whether the asserts are kept. -/
inductive Build
  | debug
  /-- With `NDEBUG`. -/
  | release
  deriving DecidableEq, Repr

/-- An `assert` of the source, in a build. -/
def Build.check (build : Build) (p : Prop) [Decidable p] (site : Site) : Except Fault Unit :=
  match build with
  | .debug => Twnl.check p site
  | .release => .ok ()

/-- `P` holds of what a call returns, or `E` of the fault it stops with. -/
def Outcome {α : Type*} (x : Except Fault α) (P : α → Prop) (E : Fault → Prop) : Prop :=
  match x with
  | .ok a => P a
  | .error e => E e

section Lemmas

universe u v

variable {α β : Type u} {ε : Type v} {p : Prop} [Decidable p] {site : Site}

@[simp] theorem bind_ok (a : α) (f : α → Except ε β) : (Except.ok a >>= f) = f a := rfl

@[simp] theorem bind_error (e : ε) (f : α → Except ε β) :
    ((Except.error e : Except ε α) >>= f) = .error e := rfl

theorem error_ne_ok {e : ε} {a : α} : (Except.error e : Except ε α) ≠ .ok a := nofun

/-- The inversion of a sequence that returns: both halves return. -/
theorem bind_eq_ok {x : Except ε α} {f : α → Except ε β} {b : β} :
    x >>= f = .ok b ↔ ∃ a, x = .ok a ∧ f a = .ok b := by
  cases x with
  | ok a => simp
  | error e => simp

theorem bind_eq_error {x : Except ε α} {f : α → Except ε β} {e : ε} :
    x >>= f = .error e ↔ x = .error e ∨ ∃ a, x = .ok a ∧ f a = .error e := by
  cases x with
  | ok a => simp
  | error e' => simp

/-- The inversion of a guarded call. -/
theorem ite_eq_ok {x : Except ε α} {e : ε} {a : α} :
    (if p then x else .error e) = .ok a ↔ p ∧ x = .ok a := by
  by_cases h : p <;> simp [h]

theorem check_pos (h : p) (site : Site) : check p site = .ok () := by rw [check, if_pos h]

theorem check_neg (h : ¬p) (site : Site) : check p site = .error (.assertion site) := by
  rw [check, if_neg h]

@[simp] theorem check_eq_ok {u : Unit} : check p site = .ok u ↔ p := by
  by_cases h : p <;> simp [check, h]

@[simp] theorem check_eq_error {e : Fault} :
    check p site = .error e ↔ ¬p ∧ e = .assertion site := by
  by_cases h : p <;> simp [check, h, eq_comm]

theorem Build.check_eq_error {build : Build} {e : Fault} (h : build.check p site = .error e) :
    e = .assertion site := by
  cases build with
  | debug => exact (Twnl.check_eq_error.mp h).2
  | release => exact absurd h nofun

@[simp] theorem outcome_ok {P : α → Prop} {E : Fault → Prop} (a : α) :
    Outcome (.ok a) P E ↔ P a := Iff.rfl

@[simp] theorem outcome_error {P : α → Prop} {E : Fault → Prop} (e : Fault) :
    Outcome (.error e : Except Fault α) P E ↔ E e := Iff.rfl

theorem Outcome.imp {x : Except Fault α} {P Q : α → Prop} {E : Fault → Prop} (h : Outcome x P E)
    (hPQ : ∀ a, P a → Q a) : Outcome x Q E := by
  cases x with
  | ok a => exact hPQ a h
  | error e => exact h

/-- The rule for a sequence. -/
theorem Outcome.bind {x : Except Fault α} {f : α → Except Fault β} {P : α → Prop} {Q : β → Prop}
    {E : Fault → Prop} (h : Outcome x P E) (hf : ∀ a, P a → Outcome (f a) Q E) :
    Outcome (x >>= f) Q E := by
  cases x with
  | ok a => exact hf a h
  | error e => exact h

/-- What holds of every result and of every fault. -/
theorem outcome_of {x : Except Fault α} {P : α → Prop} {E : Fault → Prop}
    (hok : ∀ a, x = .ok a → P a) (herr : ∀ e, x = .error e → E e) : Outcome x P E := by
  cases x with
  | ok a => exact hok a rfl
  | error e => exact herr e rfl

theorem Outcome.of_ok {x : Except Fault α} {P : α → Prop} {E : Fault → Prop} (h : Outcome x P E)
    {a : α} (hx : x = .ok a) : P a := by
  rw [hx] at h
  exact h

/-- A call that no fault is allowed to stop returns. -/
theorem Outcome.exists_ok {x : Except Fault α} {P : α → Prop}
    (h : Outcome x P (fun _ ↦ False)) : ∃ a, x = .ok a ∧ P a := by
  cases x with
  | ok a => exact ⟨a, rfl, h⟩
  | error e => exact h.elim

instance Outcome.decidable (x : Except Fault α) (P : α → Prop) (E : Fault → Prop)
    [DecidablePred P] [DecidablePred E] : Decidable (Outcome x P E) :=
  match x with
  | .ok a => inferInstanceAs (Decidable (P a))
  | .error e => inferInstanceAs (Decidable (E e))

end Lemmas

end Twnl
