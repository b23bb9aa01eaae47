import Twnl.Machine.Run

/-!
# One machine in the runs of another

Each step of one machine may be matched by a run of another, over inputs that the step names. Then
every run of the first that completes is matched by a run of the second, whose steps conform if
those of each part do (`run_matched`). The states stay related, and the relation may speak of the
inputs that are still to come, so that it can carry a condition on the whole run.
-/

namespace Machine

variable {σ τ ι κ ε ε' : Type*}

/-- A run is matched when each of its steps is. -/
theorem run_matched {step : σ → ι → Except ε σ} {step' : τ → κ → Except ε' τ}
    {inputs : σ → ι → List κ} {P : τ → κ → Prop} {R : List ι → σ → τ → Prop}
    (hstep : ∀ i is s t s', R (i :: is) s t → step s i = .ok s' →
      ∃ t', run step' t (inputs s i) = .ok t' ∧ Along step' P t (inputs s i) ∧ R is s' t')
    {is : List ι} {s s' : σ} {t : τ} (h : R is s t) (hrun : run step s is = .ok s') :
    ∃ t', run step' t (trace step inputs s is) = .ok t' ∧
      Along step' P t (trace step inputs s is) ∧ R [] s' t' := by
  induction is generalizing s t with
  | nil =>
    rw [run_nil, Except.ok.injEq] at hrun
    exact ⟨t, rfl, along_nil, hrun ▸ h⟩
  | cons i is ih =>
    obtain ⟨u, hu, hrun⟩ := run_cons_eq_ok.mp hrun
    obtain ⟨v, hv, hfirst, hrest⟩ := hstep i is s t u h hu
    obtain ⟨t', ht', hlast, hend⟩ := ih hrest hrun
    rw [trace_cons_ok hu]
    exact ⟨t', run_append_eq_ok.mpr ⟨v, hv, ht'⟩, (along_append hv).mpr ⟨hfirst, hlast⟩, hend⟩

end Machine
