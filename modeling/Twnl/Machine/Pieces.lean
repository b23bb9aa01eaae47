import Mathlib.Data.List.Basic
import Mathlib.Data.Nat.Notation

/-!
# Pieces in a bounded space

Pieces of text are added one behind the other to a content with a capacity. Each asks for some
room, which may be more than it takes, and is left out as a whole where there is less. What is there
in the end are the texts of some of the pieces in their order (`exists_kept`), and it is all of them
exactly if each that has a text found its room (`foldl_add_eq_iff`).
-/

namespace Machine

/-- A text, and the room it asks for. -/
structure Piece (α : Type*) where
  text : List α
  room : ℕ

namespace Piece

variable {α ι : Type*} {capacity : ℕ}

/-- The content behind a piece. -/
def add (capacity : ℕ) (content : List α) (piece : Piece α) : List α :=
  if content.length + piece.room ≤ capacity then content ++ piece.text else content

/-- The pieces that have a text find their room, one behind the other, from `n` elements on. -/
def AllFit (capacity n : ℕ) : List (Piece α) → Prop
  | [] => True
  | piece :: pieces =>
    (piece.text = [] ∨ n + piece.room ≤ capacity) ∧
      AllFit capacity (n + piece.text.length) pieces

theorem exists_kept (f : ι → Piece α) (is : List ι) (content : List α) :
    ∃ kept : List ι, kept.Sublist is ∧
      (is.map f).foldl (add capacity) content = content ++ kept.flatMap fun i ↦ (f i).text := by
  induction is generalizing content with
  | nil => exact ⟨[], List.Sublist.slnil, (List.append_nil content).symm⟩
  | cons i is ih =>
    obtain ⟨kept, hkept, hcontent⟩ := ih (add capacity content (f i))
    rw [List.map_cons, List.foldl_cons, hcontent, add]
    split
    · refine ⟨i :: kept, hkept.cons_cons i, ?_⟩
      rw [List.flatMap_cons, List.append_assoc]
    · exact ⟨kept, hkept.cons i, rfl⟩

theorem length_foldl_add_le (capacity : ℕ) (pieces : List (Piece α)) (content : List α) :
    (pieces.foldl (add capacity) content).length ≤
      content.length + (pieces.flatMap text).length := by
  induction pieces generalizing content with
  | nil => exact Nat.le_refl _
  | cons piece pieces ih =>
    have hpieces := ih (add capacity content piece)
    have hpiece : (add capacity content piece).length ≤
        content.length + piece.text.length := by
      rw [add]
      split
      · exact Nat.le_of_eq List.length_append
      · exact Nat.le_add_right _ _
    rw [List.foldl_cons, List.flatMap_cons, List.length_append]
    omega

theorem foldl_add_eq_iff (capacity : ℕ) (pieces : List (Piece α)) (content : List α) :
    pieces.foldl (add capacity) content = content ++ pieces.flatMap text ↔
      AllFit capacity content.length pieces := by
  induction pieces generalizing content with
  | nil => simp [AllFit]
  | cons piece pieces ih =>
    rw [List.foldl_cons, List.flatMap_cons, ← List.append_assoc, AllFit, ← List.length_append]
    by_cases hroom : content.length + piece.room ≤ capacity
    · rw [add, if_pos hroom, ih]
      simp [hroom]
    · rw [add, if_neg hroom, or_iff_left hroom]
      constructor
      · intro h
        -- a piece with a text would be missed at the end
        have hlen := length_foldl_add_le capacity pieces content
        rw [h, List.length_append, List.length_append] at hlen
        have hnil : piece.text = [] := List.length_eq_zero_iff.mp (by omega)
        rw [hnil, List.append_nil] at h ⊢
        exact ⟨rfl, (ih content).mp h⟩
      · rintro ⟨hnil, hfit⟩
        rw [hnil, List.append_nil] at hfit ⊢
        exact (ih content).mpr hfit

end Piece

end Machine
