import Mathlib.Data.Int.CardIntervalMod
import Mathlib.Data.List.Nodup

/-!
# Rotation

The members of a list are served in turn, over and over. Whoever keeps the place of the next one
only has to step it (`turn_mod`), and after any number of turns no member has been served more than
once more often than another (`count_rotation_le`).
-/

namespace Machine

variable {α : Type*} {xs : List α} {d a b : α} {n i k : ℕ}

/-- The place after a place, among that many. -/
def turn (n i : ℕ) : ℕ := if n ≤ i + 1 then 0 else i + 1

theorem turn_mod (hn : 0 < n) (k : ℕ) : turn n (k % n) = (k + 1) % n := by
  have hlt := Nat.mod_lt k hn
  have hmod : (k + 1) % n = (k % n + 1) % n := (Nat.mod_add_mod k n 1).symm
  rw [turn, hmod]
  split
  · rename_i hlast
    have heq : k % n + 1 = n := by omega
    rw [heq, Nat.mod_self]
  · exact (Nat.mod_eq_of_lt (by omega)).symm

/-- Who is served in a turn. If there are no members it is the one who stands in. -/
def served (xs : List α) (d : α) (k : ℕ) : α := xs.getD (k % xs.length) d

/-- Those served in the first turns. -/
def rotation (xs : List α) (d : α) (k : ℕ) : List α := (List.range k).map (served xs d)

@[simp] theorem served_nil : served [] d k = d := rfl

theorem getElem?_served (hne : xs ≠ []) : xs[k % xs.length]? = some (served xs d k) := by
  have hlt : k % xs.length < xs.length := Nat.mod_lt _ (List.length_pos_iff.mpr hne)
  rw [served, List.getD_eq_getElem?_getD, List.getElem?_eq_getElem hlt]
  rfl

@[simp] theorem rotation_zero : rotation xs d 0 = [] := rfl

theorem rotation_succ : rotation xs d (k + 1) = rotation xs d k ++ [served xs d k] := by
  rw [rotation, List.range_succ, List.map_append]
  rfl

variable [DecidableEq α]

/-- A member is served in the turns that fall on its place. -/
theorem count_rotation (hnodup : xs.Nodup) (hi : xs[i]? = some a) :
    (rotation xs d k).count a = k.count (· ≡ i [MOD xs.length]) := by
  obtain ⟨hlt, rfl⟩ := List.getElem?_eq_some_iff.mp hi
  induction k with
  | zero => simp
  | succ k ih =>
    have hplace : served xs d k = xs[i] ↔ k ≡ i [MOD xs.length] := by
      have hk : k % xs.length < xs.length := Nat.mod_lt _ (Nat.zero_lt_of_lt hlt)
      have hserved : served xs d k = xs[k % xs.length] := by
        rw [served, List.getD_eq_getElem?_getD, List.getElem?_eq_getElem hk]
        rfl
      rw [hserved, hnodup.getElem_inj_iff, Nat.ModEq, Nat.mod_eq_of_lt hlt]
    rw [rotation_succ, List.count_append, ih, Nat.count_succ, List.count_singleton]
    simp [hplace]

/-- No member is served more than once more often than another. -/
theorem count_rotation_le (hnodup : xs.Nodup) (ha : a ∈ xs) (hb : b ∈ xs) :
    (rotation xs d k).count a ≤ (rotation xs d k).count b + 1 := by
  obtain ⟨i, hi⟩ := List.getElem?_of_mem ha
  obtain ⟨j, hj⟩ := List.getElem?_of_mem hb
  have hpos : 0 < xs.length := List.length_pos_of_mem ha
  rw [count_rotation hnodup hi, count_rotation hnodup hj, Nat.count_modEq_card _ hpos,
    Nat.count_modEq_card _ hpos]
  split
  · split <;> omega
  · omega

end Machine
