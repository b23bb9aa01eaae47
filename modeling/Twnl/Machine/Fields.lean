import Mathlib.Data.List.Basic

/-!
# Fields with a separator

A text is often made of fields with a separator between each two of them. If every value is read
back from its own field the values are read back from all of them (`mapM_map`); a character that is
in no field and is not the separator is not in the text (`notMem_intercalate`); the last separator
of two equal texts is at the same place (`append_cons_inj`); and the length of a text is that of its
fields with one separator less than there are fields (`length_intercalate`).
-/

namespace Machine

namespace Fields

variable {α β : Type*} {n k : ℕ} {c sep : α} {fields : List (List α)}

/-! ## What fields are read as -/

/-- The elements of a list, if there are as many as there have to be. -/
def vectorOf (n : ℕ) (xs : List α) : Option (Vector α n) :=
  if h : xs.length = n then some ⟨xs.toArray, h⟩ else none

theorem vectorOf_toList (v : Vector α n) : vectorOf n v.toList = some v := by
  rw [vectorOf, dif_pos v.length_toList, Option.some.injEq]
  apply Vector.toList_inj.mp
  rfl

theorem toList_of_vectorOf {xs : List α} {v : Vector α n} (h : vectorOf n xs = some v) :
    v.toList = xs := by
  rw [vectorOf] at h
  split at h
  · rw [← Option.some.inj h]
    rfl
  · exact absurd h.symm (Option.some_ne_none v)

theorem mapM_map {read : β → Option α} {write : α → β} (hread : ∀ x, read (write x) = some x)
    (xs : List α) : (xs.map write).mapM read = some xs := by
  induction xs with
  | nil => rfl
  | cons x xs ih =>
    rw [List.map_cons, List.mapM_cons, hread, ih]
    rfl

/-- Fields that are written in one way only. -/
theorem map_of_mapM {read : β → Option α} {write : α → β}
    (hwrite : ∀ y x, read y = some x → write x = y) {ys : List β} {xs : List α}
    (h : ys.mapM read = some xs) : xs.map write = ys := by
  induction ys generalizing xs with
  | nil =>
    rw [List.mapM_nil] at h
    rw [← Option.some.inj h]
    rfl
  | cons y ys ih =>
    rw [List.mapM_cons] at h
    obtain ⟨x, hx, h⟩ := Option.bind_eq_some_iff.mp h
    obtain ⟨rest, hrest, h⟩ := Option.bind_eq_some_iff.mp h
    rw [← Option.some.inj h, List.map_cons, hwrite y x hx, ih hrest]

/-! ## The text -/

theorem notMem_intercalate (hsep : c ≠ sep) (h : ∀ field ∈ fields, c ∉ field) :
    c ∉ [sep].intercalate fields := by
  induction fields with
  | nil => exact List.not_mem_nil
  | cons field fields ih =>
    have hfield := h field List.mem_cons_self
    have hrest := ih fun f hf ↦ h f (List.mem_cons_of_mem _ hf)
    cases fields with
    | nil => simpa using hfield
    | cons next fields =>
      rw [List.intercalate_cons_cons]
      simp only [List.mem_append, List.mem_singleton, not_or]
      exact ⟨⟨hfield, hsep⟩, hrest⟩

/-- What is behind the last separator, and what is in front of it. -/
theorem append_cons_inj {front front' back back' : List α} (hback : c ∉ back) (hback' : c ∉ back')
    (h : front ++ c :: back = front' ++ c :: back') : front = front' ∧ back = back' := by
  rcases List.append_eq_append_iff.mp h with ⟨rest, hfront, hrest⟩ | ⟨rest, hfront, hrest⟩
  · cases rest with
    | nil => exact ⟨by simpa using hfront.symm, (List.cons.inj hrest).2⟩
    | cons x rest =>
      rw [List.cons_append, List.cons.injEq] at hrest
      exact absurd (hrest.2 ▸ List.mem_append_right rest List.mem_cons_self) hback
  · cases rest with
    | nil => exact ⟨by simpa using hfront, (List.cons.inj hrest).2.symm⟩
    | cons x rest =>
      rw [List.cons_append, List.cons.injEq] at hrest
      exact absurd (hrest.2 ▸ List.mem_append_right rest List.mem_cons_self) hback'

/-- The length of the fields, with a separator for each. -/
def width : List (List α) → ℕ
  | [] => 0
  | field :: fields => field.length + 1 + width fields

@[simp] theorem width_nil : width ([] : List (List α)) = 0 := rfl

@[simp] theorem width_cons (field : List α) (fields : List (List α)) :
    width (field :: fields) = field.length + 1 + width fields := rfl

theorem width_append (front behind : List (List α)) :
    width (front ++ behind) = width front + width behind := by
  induction front with
  | nil => exact (Nat.zero_add _).symm
  | cons field front ih =>
    rw [List.cons_append, width_cons, ih, width_cons]
    exact (Nat.add_assoc _ _ _).symm

theorem width_map_le {write : β → List α} (h : ∀ x, (write x).length ≤ k) (xs : List β) :
    width (xs.map write) ≤ (k + 1) * xs.length := by
  induction xs with
  | nil => exact Nat.zero_le _
  | cons x xs ih =>
    have hx := h x
    rw [List.map_cons, width_cons, List.length_cons, Nat.mul_succ]
    omega

theorem length_intercalate (sep : α) (fields : List (List α)) :
    ([sep].intercalate fields).length = width fields - 1 := by
  induction fields with
  | nil => rfl
  | cons field fields ih =>
    cases fields with
    | nil => simp
    | cons next fields =>
      rw [List.intercalate_cons_cons, List.length_append, List.length_append, ih]
      simp only [width_cons, List.length_singleton]
      omega

end Fields

end Machine
