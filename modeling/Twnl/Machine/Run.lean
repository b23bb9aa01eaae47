import Mathlib.Logic.Basic

/-!
# Runs of a machine whose steps may fail

A machine is a step function `σ → ι → Except ε σ`: from a state and an input it gives the next
state, or the failure that ends the run. Everything that varies from run to run, such as which
handler is dispatched or what the kernel answers, is in the input, so a run is determined by its
start and a list of inputs.

## Statements about every step

`Along step P s is` says that `P` holds of the state and the input at every step the run from `s`
takes. It is the form in which both halves of a conditional guarantee are stated here: the
condition on the steps, and what the steps do when they meet it.

## The rule

An invariant that every conforming step preserves holds wherever a conforming run arrives
(`Along.run_inv`), and whatever each conforming step guarantees from the invariant is guaranteed
along the whole run (`Along.guarantee`). When the guarantee also forces the condition, the two are
equivalent along every run (`along_congr`). When it is the last state that tells, each step has to
keep in it whether the condition was met so far (`run_iff_along`).

## What a run puts out

An observation `out` gives what a step from a state puts out, and `trace` collects it along a run.
-/

namespace Machine

variable {σ ι ε ω : Type*}

/-- The state a run ends in, or the failure that stopped it. -/
def run (step : σ → ι → Except ε σ) : σ → List ι → Except ε σ
  | s, [] => .ok s
  | s, i :: is =>
    match step s i with
    | .ok t => run step t is
    | .error e => .error e

/-- `P` holds at every step of the run from `s`, up to and including a step that fails. -/
def Along (step : σ → ι → Except ε σ) (P : σ → ι → Prop) : σ → List ι → Prop
  | _, [] => True
  | s, i :: is => P s i ∧
    match step s i with
    | .ok t => Along step P t is
    | .error _ => True

variable {step : σ → ι → Except ε σ} {P Q : σ → ι → Prop} {s t : σ} {i : ι} {is js : List ι}

@[simp] theorem run_nil : run step s [] = .ok s := rfl

/-- The inversion of a run that completes: its first step completes, and so does the rest. -/
theorem run_cons_eq_ok {u : σ} :
    run step s (i :: is) = .ok u ↔ ∃ t, step s i = .ok t ∧ run step t is = .ok u := by
  rw [run]
  cases hstep : step s i with
  | ok t => simp
  | error e => simp

/-- The inversion of one run after another. -/
theorem run_append_eq_ok {u : σ} :
    run step s (is ++ js) = .ok u ↔ ∃ t, run step s is = .ok t ∧ run step t js = .ok u := by
  induction is generalizing s with
  | nil => simp
  | cons i is ih =>
    simp only [List.cons_append, run_cons_eq_ok, ih]
    constructor
    · rintro ⟨v, hv, t, ht, hu⟩
      exact ⟨t, ⟨v, hv, ht⟩, hu⟩
    · rintro ⟨t, ⟨v, hv, ht⟩, hu⟩
      exact ⟨v, hv, t, ht, hu⟩

@[simp] theorem along_nil : Along step P s [] := trivial

theorem along_cons : Along step P s (i :: is) ↔
    P s i ∧ ∀ t, step s i = .ok t → Along step P t is := by
  rw [Along]
  cases hstep : step s i with
  | ok t => simp
  | error e => simp

/-- The steps of one run after another. -/
theorem along_append (hrun : run step s is = .ok t) :
    Along step P s (is ++ js) ↔ Along step P s is ∧ Along step P t js := by
  induction is generalizing s with
  | nil =>
    rw [run_nil, Except.ok.injEq] at hrun
    rw [hrun, List.nil_append, and_iff_right along_nil]
  | cons i is ih =>
    obtain ⟨u, hu, hrun⟩ := run_cons_eq_ok.mp hrun
    have hstep : ∀ js, Along step P s (i :: js) ↔ P s i ∧ Along step P u js := by
      intro js
      rw [Along, hu]
    rw [List.cons_append, hstep, hstep, ih hrun, and_assoc]

theorem along_and : Along step (fun s i ↦ P s i ∧ Q s i) s is ↔
    Along step P s is ∧ Along step Q s is := by
  induction is generalizing s with
  | nil => simp
  | cons i is ih =>
    simp only [along_cons, ih]
    constructor
    · rintro ⟨⟨hP, hQ⟩, hrest⟩
      exact ⟨⟨hP, fun t ht ↦ (hrest t ht).1⟩, hQ, fun t ht ↦ (hrest t ht).2⟩
    · rintro ⟨⟨hP, hPrest⟩, hQ, hQrest⟩
      exact ⟨⟨hP, hQ⟩, fun t ht ↦ ⟨hPrest t ht, hQrest t ht⟩⟩

/-- A property of the inputs alone. -/
theorem along_of_forall {R : ι → Prop} (h : ∀ i ∈ is, R i) : Along step (fun _ i ↦ R i) s is := by
  induction is generalizing s with
  | nil => exact along_nil
  | cons i is ih =>
    exact along_cons.mpr ⟨h i List.mem_cons_self, fun t _ ↦ ih fun j hj ↦ h j (.tail i hj)⟩

/-- Every step of a run that completes does. -/
theorem along_ok (h : run step s is = .ok t) :
    Along step (fun s i ↦ ∃ t, step s i = .ok t) s is := by
  induction is generalizing s with
  | nil => exact along_nil
  | cons i is ih =>
    obtain ⟨u, hu, hrest⟩ := run_cons_eq_ok.mp h
    refine along_cons.mpr ⟨⟨u, hu⟩, fun v hv ↦ ?_⟩
    obtain rfl := Except.ok.inj (hu.symm.trans hv)
    exact ih hrest

instance Along.decidable [∀ s i, Decidable (P s i)] :
    ∀ (s : σ) (is : List ι), Decidable (Along step P s is)
  | _, [] => .isTrue trivial
  | s, i :: is =>
    haveI : Decidable (match step s i with
        | .ok t => Along step P t is
        | .error _ => True) :=
      match step s i with
      | .ok t => Along.decidable t is
      | .error _ => .isTrue trivial
    inferInstanceAs (Decidable (_ ∧ _))

/-! ## The rule -/

variable {I : σ → Prop} {L : σ → ι → Prop}

/-- An invariant of the conforming steps holds at the end of every conforming run. -/
theorem Along.run_inv (hpres : ∀ s i t, I s → Q s i → step s i = .ok t → I t)
    (h : Along step Q s is) (hinv : I s) (hrun : run step s is = .ok t) : I t := by
  induction is generalizing s with
  | nil =>
    rw [run_nil, Except.ok.injEq] at hrun
    exact hrun ▸ hinv
  | cons i is ih =>
    obtain ⟨hQ, hrest⟩ := along_cons.mp h
    obtain ⟨u, hu, hrun⟩ := run_cons_eq_ok.mp hrun
    exact ih (hrest u hu) (hpres s i u hinv hQ hu) hrun

/-- An invariant of all steps holds wherever a run arrives. -/
theorem run_inv (hpres : ∀ s i t, I s → step s i = .ok t → I t) (hinv : I s)
    (hrun : run step s is = .ok t) : I t :=
  Along.run_inv (fun s i t h _ ↦ hpres s i t h) (along_of_forall fun _ _ ↦ trivial) hinv hrun

/-- What each conforming step guarantees from the invariant holds along every conforming run. -/
theorem Along.guarantee (hpres : ∀ s i t, I s → Q s i → step s i = .ok t → I t)
    (hP : ∀ s i, I s → Q s i → P s i) (h : Along step Q s is) (hinv : I s) :
    Along step P s is := by
  induction is generalizing s with
  | nil => exact along_nil
  | cons i is ih =>
    obtain ⟨hQ, hrest⟩ := along_cons.mp h
    exact along_cons.mpr ⟨hP s i hinv hQ, fun t ht ↦ ih (hrest t ht) (hpres s i t hinv hQ ht)⟩

/-- What is so of the failure of every conforming step from the invariant is so of the failure of a
conforming run. -/
theorem Along.run_error {E : ε → Prop} {e : ε}
    (hpres : ∀ s i t, I s → Q s i → step s i = .ok t → I t)
    (herr : ∀ s i e, I s → Q s i → step s i = .error e → E e) (h : Along step Q s is)
    (hinv : I s) (hrun : run step s is = .error e) : E e := by
  induction is generalizing s with
  | nil => exact absurd hrun nofun
  | cons i is ih =>
    obtain ⟨hQ, hrest⟩ := along_cons.mp h
    rw [run] at hrun
    split at hrun
    · rename_i u hu
      exact ih (hrest u hu) (hpres s i u hinv hQ hu) hrun
    · rename_i f hf
      exact herr s i e hinv hQ (hf.trans (congrArg _ (Except.error.inj hrun)))

/-- Two step properties that agree wherever the invariant holds agree along every run, provided
the steps that have them preserve the invariant. -/
theorem along_congr (hpres : ∀ s i t, I s → Q s i → step s i = .ok t → I t)
    (hPQ : ∀ s i, I s → (P s i ↔ Q s i)) (hinv : I s) :
    Along step P s is ↔ Along step Q s is := by
  constructor
  · intro h
    refine Along.guarantee (fun s i t hs hP ht ↦ ?_) (fun s i hs ↦ (hPQ s i hs).mp) h hinv
    exact hpres s i t hs ((hPQ s i hs).mp hP) ht
  · intro h
    exact Along.guarantee hpres (fun s i hs ↦ (hPQ s i hs).mpr) h hinv

/-- The same within a domain: the two are compared on runs all of whose steps are in `L`. -/
theorem along_congr_of (hpres : ∀ s i t, I s → L s i → Q s i → step s i = .ok t → I t)
    (hPQ : ∀ s i, I s → L s i → (P s i ↔ Q s i)) (hinv : I s) (hL : Along step L s is) :
    Along step P s is ↔ Along step Q s is := by
  have key : Along step (fun s i ↦ L s i ∧ P s i) s is ↔
      Along step (fun s i ↦ L s i ∧ Q s i) s is :=
    along_congr (fun s i t hs hQ ht ↦ hpres s i t hs hQ.1 hQ.2 ht)
      (fun s i hs ↦ and_congr_right fun hi ↦ hPQ s i hs hi) hinv
  rw [along_and, along_and] at key
  exact ⟨fun h ↦ (key.mp ⟨hL, h⟩).2, fun h ↦ (key.mpr ⟨hL, h⟩).2⟩

/-- Where each step of `L` decides a property of the state for good, the state in which a run of
such steps arrives tells whether all of them met the condition. -/
theorem run_iff_along_of {J : σ → Prop}
    (hpres : ∀ s i t, I s → L s i → step s i = .ok t → I t)
    (hstep : ∀ s i t, I s → L s i → step s i = .ok t → (J t ↔ J s ∧ Q s i)) (hinv : I s)
    (hL : Along step L s is) (hrun : run step s is = .ok t) : J t ↔ J s ∧ Along step Q s is := by
  induction is generalizing s with
  | nil =>
    rw [run_nil, Except.ok.injEq] at hrun
    rw [hrun]
    exact (and_iff_left along_nil).symm
  | cons i is ih =>
    obtain ⟨u, hu, hrun⟩ := run_cons_eq_ok.mp hrun
    obtain ⟨hi, hLrest⟩ := along_cons.mp hL
    have hrest : Along step Q s (i :: is) ↔ Q s i ∧ Along step Q u is := by
      rw [Along, hu]
    rw [ih (hpres s i u hinv hi hu) (hLrest u hu) hrun, hstep s i u hinv hi hu, hrest, and_assoc]

/-- The same for all steps. -/
theorem run_iff_along {J : σ → Prop} (hpres : ∀ s i t, I s → step s i = .ok t → I t)
    (hstep : ∀ s i t, I s → step s i = .ok t → (J t ↔ J s ∧ Q s i)) (hinv : I s)
    (hrun : run step s is = .ok t) : J t ↔ J s ∧ Along step Q s is :=
  run_iff_along_of (fun s i t h _ ↦ hpres s i t h) (fun s i t h _ ↦ hstep s i t h) hinv
    (along_of_forall fun _ _ ↦ trivial) hrun

/-! ## What a run puts out -/

/-- What the steps of a run put out, up to and including a step that fails. -/
def trace (step : σ → ι → Except ε σ) (out : σ → ι → List ω) : σ → List ι → List ω
  | _, [] => []
  | s, i :: is => out s i ++
    match step s i with
    | .ok t => trace step out t is
    | .error _ => []

variable {out : σ → ι → List ω}

@[simp] theorem trace_nil : trace step out s [] = [] := rfl

theorem trace_cons_ok (h : step s i = .ok t) :
    trace step out s (i :: is) = out s i ++ trace step out t is := by
  rw [trace, h]

end Machine
