import Mathlib.Data.List.Basic
import Mathlib.Data.List.TakeDrop

/-!
# Windows of a list

The elements of a list between two positions. An array that is filled at one index and emptied at
another holds a queue in its window: writing at the upper end appends to it, moving the lower end
drops from its front, and neither copying the window to the start of the array nor growing the
array changes what it holds.
-/

variable {α : Type*}

namespace List

/-- The elements at the positions from `lo` on and below `hi`. -/
def window (l : List α) (lo hi : ℕ) : List α := (l.drop lo).take (hi - lo)

/-- Overwrites the elements from position `k` on with `xs`. -/
def writeAt (l : List α) (k : ℕ) (xs : List α) : List α :=
  l.take k ++ (xs ++ l.drop (k + xs.length))

variable {l xs ys : List α} {lo hi n : ℕ}

theorem length_window (h : hi ≤ l.length) : (l.window lo hi).length = hi - lo := by
  rw [window, length_take, length_drop]
  omega

@[simp] theorem window_self (l : List α) (k : ℕ) : l.window k k = [] := by
  rw [window, Nat.sub_self, take_zero]

/-- Moving the lower end up drops from the front. -/
theorem window_add_left (l : List α) (lo hi n : ℕ) :
    l.window (lo + n) hi = (l.window lo hi).drop n := by
  rw [window, window, drop_take, drop_drop, Nat.sub_add_eq]

theorem length_writeAt (h : n + xs.length ≤ l.length) : (l.writeAt n xs).length = l.length := by
  simp only [writeAt, length_append, length_take, length_drop]
  omega

/-- Writing at the upper end appends. -/
theorem window_writeAt (hlo : lo ≤ hi) (h : hi + xs.length ≤ l.length) :
    (l.writeAt hi xs).window lo (hi + xs.length) = l.window lo hi ++ xs := by
  have hlen : ((l.take hi).drop lo).length = hi - lo := by
    rw [length_drop, length_take]
    omega
  have hsize : hi + xs.length - lo = ((l.take hi).drop lo).length + xs.length := by
    rw [hlen]
    omega
  rw [window, writeAt, drop_append_of_le_length (by rw [length_take]; omega), hsize,
    take_length_add_append, take_left, window, drop_take]

/-- Writing behind what was written is writing both. -/
theorem writeAt_writeAt_append (h : n + xs.length ≤ l.length) (ys : List α) :
    (l.writeAt n xs).writeAt (n + xs.length) ys = l.writeAt n (xs ++ ys) := by
  have hfront : (l.take n ++ xs).length = n + xs.length := by
    rw [length_append, length_take, Nat.min_eq_left (by omega)]
  have htake : (l.writeAt n xs).take (n + xs.length) = l.take n ++ xs := by
    rw [writeAt, ← append_assoc, take_left' hfront]
  have hdrop : (l.writeAt n xs).drop (n + xs.length) = l.drop (n + xs.length) := by
    rw [writeAt, ← append_assoc, drop_left' hfront]
  rw [writeAt, htake, ← drop_drop, hdrop, drop_drop, writeAt, length_append, append_assoc,
    append_assoc, Nat.add_assoc]

/-- Overwriting the front of what was written with as much. -/
theorem writeAt_writeAt_front {zs : List α} (h : n ≤ l.length) (hlen : zs.length = xs.length) :
    (l.writeAt n (xs ++ ys)).writeAt n zs = l.writeAt n (zs ++ ys) := by
  have hfront : (l.take n).length = n := by rw [length_take, Nat.min_eq_left h]
  have htake : (l.writeAt n (xs ++ ys)).take n = l.take n := by
    rw [writeAt, take_left' hfront]
  have hdrop : (l.writeAt n (xs ++ ys)).drop (n + zs.length)
      = ys ++ l.drop (n + (xs ++ ys).length) := by
    rw [← drop_drop, writeAt, drop_left' hfront, append_assoc, drop_left' hlen.symm]
  rw [writeAt, htake, hdrop, writeAt, length_append, length_append, hlen, append_assoc]

/-- What was written is there. -/
theorem window_writeAt_self (h : n ≤ l.length) (xs ys : List α) :
    (l.writeAt n (xs ++ ys)).window n (n + xs.length) = xs := by
  have hfront : (l.take n).length = n := by rw [length_take, Nat.min_eq_left h]
  rw [window, writeAt, drop_left' hfront, Nat.add_sub_cancel_left, append_assoc, take_left]

/-- What is written goes behind what stands in front of it. -/
theorem take_writeAt (h : n ≤ l.length) (xs ys : List α) :
    (l.writeAt n (xs ++ ys)).take (n + xs.length) = l.take n ++ xs := by
  have hfront : (l.take n ++ xs).length = n + xs.length := by
    rw [length_append, length_take, Nat.min_eq_left h]
  rw [writeAt, append_assoc, ← append_assoc, take_left' hfront]

/-- Growing the array leaves the window as it is. -/
theorem window_append_right (h : hi ≤ l.length) (xs : List α) :
    (l ++ xs).window lo hi = l.window lo hi := by
  rcases Nat.le_total lo hi with hlo | hlo
  · rw [window, window, drop_append_of_le_length (Nat.le_trans hlo h),
      take_append_of_le_length (by rw [length_drop]; omega)]
  · rw [window, window, Nat.sub_eq_zero_of_le hlo, take_zero, take_zero]

/-- Copying the window to the start leaves it as it is. -/
theorem window_writeAt_zero (h : hi ≤ l.length) :
    (l.writeAt 0 (l.window lo hi)).window 0 (hi - lo) = l.window lo hi := by
  rw [writeAt, take_zero, nil_append, window, drop_zero, Nat.sub_zero]
  conv_lhs => rw [← length_window h, take_left]

end List
