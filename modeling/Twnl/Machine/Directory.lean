import Mathlib.Logic.Function.Basic

/-!
# Directories

A directory has its members under their keys, and nothing else. So no two members have the same key,
although others that are not in it may.
-/

namespace Machine

variable {α κ : Type*} {m m' : κ → Option α} {key : α → κ} {P P' : α → Prop} {a b : α} {x : κ}

/-- The members are under their keys, and nothing else is. -/
def Directory (m : κ → Option α) (key : α → κ) (P : α → Prop) : Prop :=
  ∀ x a, m x = some a ↔ P a ∧ key a = x

namespace Directory

theorem get (h : Directory m key P) (ha : P a) : m (key a) = some a := (h _ a).mpr ⟨ha, rfl⟩

theorem injective (h : Directory m key P) (ha : P a) (hb : P b) (hkey : key a = key b) : a = b :=
  Option.some.inj (((h _ a).mpr ⟨ha, hkey⟩).symm.trans (h.get hb))

theorem eq_none (h : Directory m key P) (hx : ∀ a, P a → key a ≠ x) : m x = none := by
  refine Option.eq_none_iff_forall_ne_some.mpr fun a ha ↦ ?_
  obtain ⟨hmem, hkey⟩ := (h x a).mp ha
  exact hx a hmem hkey

/-- A directory that changes at one key has to be right there. -/
theorem replace (h : Directory m key P) (hkeep : ∀ y, y ≠ x → m' y = m y)
    (hframe : ∀ b, key b ≠ x → (P' b ↔ P b)) (hat : ∀ b, m' x = some b ↔ P' b ∧ key b = x) :
    Directory m' key P' := by
  intro y b
  by_cases hy : y = x
  · rw [hy]
    exact hat b
  · rw [hkeep y hy, h y b]
    refine and_congr_left fun hkey ↦ (hframe b ?_).symm
    rw [hkey]
    exact hy

variable [DecidableEq κ]

/-- A new member goes under its key when there is nothing. -/
theorem insert (h : Directory m key P) (hnone : m (key a) = none) :
    Directory (Function.update m (key a) (some a)) key fun b ↦ P b ∨ b = a := by
  refine h.replace (fun y hy ↦ Function.update_of_ne hy _ _) (fun b hb ↦ or_iff_left ?_)
    fun b ↦ ?_
  · rintro rfl
    exact hb rfl
  · rw [Function.update_self, Option.some.injEq]
    constructor
    · rintro rfl
      exact ⟨Or.inr rfl, rfl⟩
    · rintro ⟨hb | rfl, hkey⟩
      · exact absurd (((h _ b).mpr ⟨hb, hkey⟩).symm.trans hnone) (Option.some_ne_none b)
      · rfl

/-- A member is taken out. -/
theorem erase (h : Directory m key P) (ha : P a) :
    Directory (Function.update m (key a) none) key fun b ↦ P b ∧ b ≠ a := by
  refine h.replace (fun y hy ↦ Function.update_of_ne hy _ _) (fun b hb ↦ and_iff_left ?_)
    fun b ↦ ?_
  · rintro rfl
    exact hb rfl
  · rw [Function.update_self]
    refine iff_of_false (Option.some_ne_none b).symm fun hb ↦ hb.1.2 ?_
    exact h.injective hb.1.1 ha hb.2

end Directory

end Machine
