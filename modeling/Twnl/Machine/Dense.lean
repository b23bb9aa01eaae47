import Mathlib.Data.Int.Notation
import Mathlib.Data.List.Nodup
import Mathlib.Data.List.Perm.Basic
import Mathlib.Logic.Function.Basic

/-!
# Dense tables

A dense table has its entries in consecutive places, and each owner of an entry knows the place of
it. An entry is taken out by moving the last one to its place (`swapRemove`), so that one owner at
most learns a new place. `Dense` says that all owners know their places, and is kept by adding an
entry behind the others and by taking one out. `Entered` says that the entries are those of their
owners.
-/

namespace Machine

variable {α : Type*}

/-- The last element takes the place of the one that is taken out. -/
def swapRemove (l : List α) (place : ℕ) : List α :=
  match l.getLast? with
  | none => []
  | some back => (l.set place back).dropLast

variable {l front : List α} {a back : α} {place j : ℕ}

theorem swapRemove_eq (h : l.getLast? = some back) :
    swapRemove l place = (l.set place back).dropLast := by
  rw [swapRemove, h]

@[simp] theorem length_swapRemove (l : List α) (place : ℕ) :
    (swapRemove l place).length = l.length - 1 := by
  cases h : l.getLast? with
  | none =>
    obtain rfl := List.getLast?_eq_none_iff.mp h
    rfl
  | some back => rw [swapRemove_eq h, List.length_dropLast, List.length_set]

/-- The element at the place is the one that goes. -/
theorem perm_cons_swapRemove (h : l[place]? = some a) : l.Perm (a :: swapRemove l place) := by
  obtain ⟨hlt, rfl⟩ := List.getElem?_eq_some_iff.mp h
  have hne : l ≠ [] := List.ne_nil_of_length_pos (by omega)
  have hlast := List.getLast?_eq_getLast_of_ne_nil hne
  rw [swapRemove_eq hlast]
  obtain ⟨front, back, rfl⟩ : ∃ front back, l = front ++ [back] :=
    ⟨_, _, (List.dropLast_append_getLast hne).symm⟩
  rw [List.getLast_concat]
  rcases Nat.lt_or_ge place front.length with hfront | hback
  · -- the front falls apart at the place
    have hsplit : front = front.take place ++ front[place] :: front.drop (place + 1) := by
      rw [List.getElem_cons_drop, List.take_append_drop]
    have hset : front.set place back = front.take place ++ back :: front.drop (place + 1) :=
      List.set_eq_take_append_cons_drop.trans (if_pos hfront)
    rw [List.getElem_append_left hfront, List.set_append_left _ _ hfront, List.dropLast_concat,
      hset]
    nth_rewrite 1 [hsplit]
    rw [List.append_assoc, List.cons_append]
    refine List.perm_middle.trans (List.Perm.cons _ ?_)
    exact List.Perm.append_left _ (List.perm_append_singleton back _)
  · have hplace : place = front.length := by
      rw [List.length_append, List.length_singleton] at hlt
      omega
    subst hplace
    rw [List.getElem_concat_length rfl, List.set_append_right _ _ (Nat.le_refl _), Nat.sub_self,
      List.set_cons_zero, List.dropLast_concat]
    exact List.perm_append_singleton back front

theorem getElem?_swapRemove (hj : j < l.length - 1) :
    (swapRemove l place)[j]? = if place = j then l[l.length - 1]? else l[j]? := by
  cases h : l.getLast? with
  | none =>
    obtain rfl := List.getLast?_eq_none_iff.mp h
    exact absurd hj (Nat.not_lt_zero _)
  | some back =>
    rw [swapRemove_eq h, List.getElem?_dropLast, List.length_set, if_pos hj, List.getElem?_set,
      ← List.getLast?_eq_getElem?, h]
    by_cases hplace : place = j
    · rw [if_pos hplace, if_pos hplace, if_pos (by omega)]
    · rw [if_neg hplace, if_neg hplace]

/-- All others stay. -/
theorem mem_swapRemove_iff (hnodup : l.Nodup) (ha : l[place]? = some a) (x : α) :
    x ∈ swapRemove l place ↔ x ∈ l ∧ x ≠ a := by
  have hperm := perm_cons_swapRemove ha
  have hnotin := (List.nodup_cons.mp (hperm.nodup_iff.mp hnodup)).1
  rw [hperm.mem_iff, List.mem_cons]
  constructor
  · intro hx
    refine ⟨Or.inr hx, ?_⟩
    rintro rfl
    exact hnotin hx
  · rintro ⟨hx, hne⟩
    exact hx.resolve_left hne

/-! ## Owners -/

variable {ι : Type*} {owners : List ι} {index index' : ι → ℤ} {o b : ι}

/-- Every owner has one entry, and knows the place of it. -/
structure Dense (owners : List ι) (index : ι → ℤ) : Prop where
  nodup : owners.Nodup
  index_eq : ∀ (i : ℕ) (o : ι), owners[i]? = some o → index o = i

namespace Dense

theorem nil (index : ι → ℤ) : Dense [] index :=
  ⟨List.nodup_nil, fun i o h ↦ absurd h (by simp)⟩

/-- The place that an owner knows is its own. -/
theorem getElem?_eq (h : Dense owners index) (ho : o ∈ owners) {i : ℕ} (hi : index o = i) :
    owners[i]? = some o := by
  obtain ⟨j, hj⟩ := List.mem_iff_getElem?.mp ho
  have hij : i = j := Int.ofNat.inj (hi.symm.trans (h.index_eq j o hj))
  rw [hij, hj]

theorem congr (h : Dense owners index) (heq : ∀ o ∈ owners, index' o = index o) :
    Dense owners index' :=
  ⟨h.nodup, fun i o ho ↦ (heq o (List.mem_of_getElem? ho)).trans (h.index_eq i o ho)⟩

/-- A new owner gets the place behind the others. -/
theorem concat (h : Dense owners index) (ho : o ∉ owners)
    (hframe : ∀ a ∈ owners, index' a = index a) (hnew : index' o = owners.length) :
    Dense (owners ++ [o]) index' := by
  constructor
  · rw [List.nodup_append]
    refine ⟨h.nodup, List.nodup_singleton o, fun a ha b hb ↦ ?_⟩
    rw [List.mem_singleton.mp hb]
    exact fun hab ↦ ho (hab ▸ ha)
  · intro i a ha
    rcases Nat.lt_or_ge i owners.length with hi | hi
    · rw [List.getElem?_append_left hi] at ha
      exact (hframe a (List.mem_of_getElem? ha)).trans (h.index_eq i a ha)
    · rw [List.getElem?_append_right hi] at ha
      obtain ⟨hlt, rfl⟩ := List.getElem?_eq_some_iff.mp ha
      rw [List.length_singleton] at hlt
      rw [List.getElem_singleton, hnew]
      omega

/-- The owner of the last entry learns the place of the one that is taken out. -/
theorem swapRemove (h : Dense owners index) {place : ℕ} (ho : owners[place]? = some o)
    (hb : owners[owners.length - 1]? = some b) (hframe : ∀ a ∈ owners, a ≠ b → index' a = index a)
    (hmoved : index' b = place) : Dense (swapRemove owners place) index' := by
  have hperm := perm_cons_swapRemove ho
  constructor
  · exact (List.nodup_cons.mp (hperm.nodup_iff.mp h.nodup)).2
  · intro j a ha
    have hj := (List.getElem?_eq_some_iff.mp ha).1
    rw [length_swapRemove] at hj
    rw [getElem?_swapRemove hj] at ha
    split at ha
    · rename_i hplace
      obtain rfl := Option.some.inj (hb.symm.trans ha)
      rw [hmoved, hplace]
    · have hne : a ≠ b := by
        rintro rfl
        have := (h.index_eq j a ha).symm.trans (h.index_eq _ a hb)
        omega
      exact (hframe a (List.mem_of_getElem? ha) hne).trans (h.index_eq j a ha)

end Dense

/-! ## Entries -/

variable {β : Type*} {table : List β} {e : β} {R R' : ι → β → Prop}

/-- The entry in the place of an owner is one of its own. -/
def Entered (R : ι → β → Prop) (owners : List ι) (table : List β) : Prop :=
  ∀ (i : ℕ) (o : ι), owners[i]? = some o → ∃ e, table[i]? = some e ∧ R o e

namespace Entered

theorem concat (h : Entered R owners table) (hlen : owners.length = table.length)
    (hframe : ∀ a ∈ owners, ∀ e, R a e → R' a e) (hnew : R' o e) :
    Entered R' (owners ++ [o]) (table ++ [e]) := by
  intro i a ha
  rcases Nat.lt_or_ge i owners.length with hi | hi
  · rw [List.getElem?_append_left hi] at ha
    rw [List.getElem?_append_left (hlen ▸ hi)]
    obtain ⟨e', he', hentry⟩ := h i a ha
    exact ⟨e', he', hframe a (List.mem_of_getElem? ha) e' hentry⟩
  · rw [List.getElem?_append_right hi] at ha
    obtain ⟨hlt, rfl⟩ := List.getElem?_eq_some_iff.mp ha
    rw [List.length_singleton] at hlt
    have hzero : i - owners.length = 0 := by omega
    rw [List.getElem_singleton, List.getElem?_append_right (hlen ▸ hi), ← hlen, hzero]
    exact ⟨e, rfl, hnew⟩

/-- The entry of one owner is written. -/
theorem set (h : Entered R owners table) (hnodup : owners.Nodup) (ho : owners[place]? = some o)
    (hframe : ∀ a, a ≠ o → ∀ e, R a e → R' a e) (hnew : R' o e) :
    Entered R' owners (table.set place e) := by
  intro i a ha
  by_cases hi : place = i
  · obtain rfl : o = a := by
      rw [hi] at ho
      exact Option.some.inj (ho.symm.trans ha)
    obtain ⟨e', he', -⟩ := h place o ho
    rw [← hi, List.getElem?_set_self (List.getElem?_eq_some_iff.mp he').1]
    exact ⟨e, rfl, hnew⟩
  · have hne : a ≠ o := by
      rintro rfl
      have hlt := (List.getElem?_eq_some_iff.mp ho).1
      exact hi ((List.getElem?_inj hlt hnodup).mp (ho.trans ha.symm))
    obtain ⟨e', he', hentry⟩ := h i a ha
    rw [List.getElem?_set_ne hi]
    exact ⟨e', he', hframe a hne e' hentry⟩

/-- The entry that is moved goes with its owner. -/
theorem swapRemove (h : Entered R owners table) (hlen : owners.length = table.length)
    (hframe : ∀ a e, R a e → R' a e) (place : ℕ) :
    Entered R' (swapRemove owners place) (swapRemove table place) := by
  intro i a ha
  have hi := (List.getElem?_eq_some_iff.mp ha).1
  rw [length_swapRemove] at hi
  rw [getElem?_swapRemove hi] at ha
  rw [getElem?_swapRemove (hlen ▸ hi), ← hlen]
  split at ha
  · rename_i hplace
    obtain ⟨e', he', hentry⟩ := h _ a ha
    exact ⟨e', (if_pos hplace).trans he', hframe a e' hentry⟩
  · rename_i hplace
    obtain ⟨e', he', hentry⟩ := h i a ha
    exact ⟨e', (if_neg hplace).trans he', hframe a e' hentry⟩

end Entered

end Machine
