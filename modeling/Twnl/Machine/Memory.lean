import Mathlib.Data.List.Basic
import Mathlib.Logic.Function.Basic

/-!
# Memory

A memory has a value at each address that is in use. A range of addresses can be read when all of
them are, and what was read stays there as long as none of them is given another value or goes out
of use (`read_update_iff`).
-/

namespace Machine

variable {α : Type*}

/-- What each address holds; one that holds nothing is not in use. -/
abbrev Memory (α : Type*) := ℕ → Option α

namespace Memory

/-- The `len` values from an address on. -/
def read (m : Memory α) : ℕ → ℕ → Option (List α)
  | _, 0 => some []
  | addr, len + 1 => do
    let a ← m addr
    let as ← m.read (addr + 1) len
    return a :: as

variable {m : Memory α} {addr len a : ℕ} {xs : List α}

theorem read_succ_eq_some : m.read addr (len + 1) = some xs ↔
    ∃ a as, m addr = some a ∧ m.read (addr + 1) len = some as ∧ a :: as = xs := by
  simp only [read, Option.bind_eq_bind, Option.bind_eq_some_iff, Option.pure_def,
    Option.some.injEq]
  constructor
  · rintro ⟨a, ha, as, has, heq⟩
    exact ⟨a, as, ha, has, heq⟩
  · rintro ⟨a, as, ha, has, heq⟩
    exact ⟨a, ha, as, has, heq⟩

/-- What is read depends on the range alone. -/
theorem read_congr {m' : Memory α} (h : ∀ a, addr ≤ a → a < addr + len → m a = m' a) :
    m.read addr len = m'.read addr len := by
  induction len generalizing addr with
  | zero => rfl
  | succ len ih =>
    rw [read, read, h addr (Nat.le_refl _) (by omega),
      ih fun a hle hlt ↦ h a (by omega) (by omega)]

/-- What reads the same is the same throughout the range. -/
theorem eq_of_read {m' : Memory α} (h : m.read addr len = some xs)
    (h' : m'.read addr len = some xs) (hle : addr ≤ a) (hlt : a < addr + len) : m a = m' a := by
  induction len generalizing addr xs with
  | zero => omega
  | succ len ih =>
    obtain ⟨b, bs, hb, hbs, rfl⟩ := read_succ_eq_some.mp h
    obtain ⟨c, cs, hc, hcs, heq⟩ := read_succ_eq_some.mp h'
    obtain ⟨rfl, rfl⟩ := List.cons.inj heq
    by_cases haddr : addr = a
    · rw [← haddr, hb, hc]
    · exact ih hbs hcs (by omega) (by omega)

/-- A range reads the same after a change exactly when the change is outside it, or is none. -/
theorem read_update_iff {v : Option α} (h : m.read addr len = some xs) :
    Memory.read (Function.update m a v) addr len = some xs ↔
      (addr ≤ a → a < addr + len → v = m a) := by
  constructor
  · intro h' hle hlt
    rw [eq_of_read h h' hle hlt, Function.update_self]
  · intro hsame
    rw [← h]
    refine read_congr fun b hle hlt ↦ ?_
    by_cases hb : b = a
    · subst hb
      rw [Function.update_self, hsame hle hlt]
    · rw [Function.update_of_ne hb]

end Memory

end Machine
