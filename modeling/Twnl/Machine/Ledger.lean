import Mathlib.Data.List.Count
import Mathlib.Data.List.Nodup
import Mathlib.Data.List.Perm.Basic

/-!
# Ledgers

Objects are taken into use, handed from one place to another and released. A ledger lists those
that are held, place after place, and those that were released in the order of their release. It is
sound when it lists every object in use exactly once: no object is held in two places, held after
its release, released twice, or lost.

A hand-over is a permutation of what is held, and so changes nothing (`Ledger.move`).
-/

namespace Machine

variable {ι : Type*}

/-- A sound ledger of the objects that are or were in use. -/
structure Ledger (held released : List ι) (used : ι → Prop) : Prop where
  nodup : (held ++ released).Nodup
  used_iff : ∀ i, used i ↔ i ∈ held ++ released

namespace Ledger

variable {held held' released : List ι} {used used' : ι → Prop} {i : ι}

theorem move (h : Ledger held released used) (hperm : held'.Perm held) :
    Ledger held' released used := by
  have happend := hperm.append_right released
  constructor
  · exact happend.nodup_iff.mpr h.nodup
  · intro i
    exact (h.used_iff i).trans happend.mem_iff.symm

/-- An object not in use is taken. -/
theorem take (h : Ledger held released used) (hnew : ¬used i) (hperm : held'.Perm (i :: held))
    (hused : ∀ j, used' j ↔ j = i ∨ used j) : Ledger held' released used' := by
  refine move ⟨?_, ?_⟩ hperm
  · rw [List.cons_append, List.nodup_cons]
    exact ⟨mt (h.used_iff i).mpr hnew, h.nodup⟩
  · intro j
    rw [hused, h.used_iff, List.cons_append, List.mem_cons]

/-- An object that is held is released. -/
theorem release (h : Ledger held released used) (hperm : held.Perm (i :: held')) :
    Ledger held' (released ++ [i]) used := by
  have hall : (held' ++ (released ++ [i])).Perm (held ++ released) := by
    rw [← List.append_assoc]
    exact (List.perm_append_singleton i _).trans (hperm.append_right released).symm
  constructor
  · exact hall.nodup_iff.mpr h.nodup
  · intro j
    exact (h.used_iff j).trans hall.mem_iff.symm

/-- Whatever is in use is in one place, or was released once. -/
theorem count_eq_one [DecidableEq ι] (h : Ledger held released used) (hi : used i) :
    held.count i + released.count i = 1 := by
  rw [← List.count_append]
  exact List.count_eq_one_of_mem h.nodup ((h.used_iff i).mp hi)

end Ledger

end Machine
