import Mathlib.Data.List.Basic
import Mathlib.Data.List.Infix

/-!
# Frames of a stream

A stream is cut into frames by a delimiter: a frame ends where the delimiter stands for the first
time, and the next begins behind it. What is behind the last delimiter is the rest, which has yet to
be completed.

`search` is where a pattern first stands, and `frames` cuts a stream with it. More of a stream only
adds to its frames and never changes one (`frames_append`), so it does not matter in which pieces a
stream arrives, and when in between its frames are taken. Nothing is lost (`flatten_frames`).
-/

namespace Machine

variable {α : Type*} [DecidableEq α] {pat l m : List α} {i j : ℕ}

/-- The first place at which the pattern stands. -/
def search (pat : List α) : List α → Option ℕ
  | [] => if pat = [] then some 0 else none
  | a :: l => if pat <+: a :: l then some 0 else (search pat l).map (· + 1)

theorem search_here (h : pat <+: l) : search pat l = some 0 := by
  cases l with
  | nil => rw [search, if_pos (List.prefix_nil.mp h)]
  | cons a l => rw [search, if_pos h]

theorem search_later {a : α} (h : ¬pat <+: a :: l) :
    search pat (a :: l) = (search pat l).map (· + 1) := by
  rw [search, if_neg h]

/-- The first place is one at which the pattern stands, and in front of it there is none. -/
theorem search_eq_some_iff (hpat : pat ≠ []) :
    search pat l = some i ↔ pat <+: l.drop i ∧ ∀ j < i, ¬pat <+: l.drop j := by
  induction l generalizing i with
  | nil =>
    have hnone (j : ℕ) : ¬pat <+: ([] : List α).drop j := by
      rw [List.drop_nil, List.prefix_nil]
      exact hpat
    rw [search, if_neg hpat]
    exact iff_of_false (Option.some_ne_none i).symm fun h ↦ hnone i h.1
  | cons a l ih =>
    by_cases hpre : pat <+: a :: l
    · rw [search_here hpre, Option.some.injEq]
      constructor
      · rintro rfl
        exact ⟨hpre, fun j hj ↦ absurd hj (Nat.not_lt_zero j)⟩
      · rintro ⟨-, hfirst⟩
        by_contra hne
        exact hfirst 0 (Nat.pos_of_ne_zero (Ne.symm hne)) hpre
    · rw [search_later hpre, Option.map_eq_some_iff]
      constructor
      · rintro ⟨k, hk, rfl⟩
        obtain ⟨hat, hfirst⟩ := ih.mp hk
        refine ⟨hat, fun j hj ↦ ?_⟩
        cases j with
        | zero => exact hpre
        | succ j => exact hfirst j (Nat.lt_of_succ_lt_succ hj)
      · rintro ⟨hat, hfirst⟩
        cases i with
        | zero => exact absurd hat hpre
        | succ i =>
          refine ⟨i, ih.mpr ⟨hat, fun j hj ↦ ?_⟩, rfl⟩
          exact hfirst (j + 1) (Nat.succ_lt_succ hj)

theorem search_eq_none_iff (hpat : pat ≠ []) :
    search pat l = none ↔ ∀ i, ¬pat <+: l.drop i := by
  induction l with
  | nil =>
    rw [search, if_neg hpat]
    refine iff_of_true rfl fun i ↦ ?_
    rw [List.drop_nil, List.prefix_nil]
    exact hpat
  | cons a l ih =>
    by_cases hpre : pat <+: a :: l
    · rw [search_here hpre]
      exact iff_of_false (Option.some_ne_none 0) fun h ↦ h 0 hpre
    · rw [search_later hpre, Option.map_eq_none_iff, ih]
      constructor
      · intro h i
        cases i with
        | zero => exact hpre
        | succ i => exact h i
      · exact fun h i ↦ h (i + 1)

/-- The pattern ends in the list. -/
theorem add_length_le (hpat : pat ≠ []) (h : search pat l = some i) :
    i + pat.length ≤ l.length := by
  have hat := ((search_eq_some_iff hpat).mp h).1
  have hpos := List.length_pos_iff.mpr hpat
  have hle := hat.length_le
  rw [List.length_drop] at hle
  omega

omit [DecidableEq α] in
/-- Where the pattern stands, it stands in more of the list. -/
theorem prefix_drop_append (hle : i + pat.length ≤ l.length) :
    pat <+: (l ++ m).drop i ↔ pat <+: l.drop i := by
  have hdrop : (l ++ m).drop i = l.drop i ++ m := List.drop_append_of_le_length (by omega)
  have hlen : pat.length ≤ (l.drop i).length := by
    rw [List.length_drop]
    omega
  rw [hdrop]
  constructor
  · intro h
    exact List.prefix_of_prefix_length_le h (List.prefix_append _ _) hlen
  · intro h
    exact h.trans (List.prefix_append _ _)

/-- More of the list does not move the first place. -/
theorem search_append (hpat : pat ≠ []) (h : search pat l = some i) :
    search pat (l ++ m) = some i := by
  have hle := add_length_le hpat h
  obtain ⟨hat, hfirst⟩ := (search_eq_some_iff hpat).mp h
  refine (search_eq_some_iff hpat).mpr ⟨(prefix_drop_append hle).mpr hat, fun j hj ↦ ?_⟩
  rw [prefix_drop_append (by omega)]
  exact hfirst j hj

/-- A search that starts later finds the same exactly when nothing stands in front of it. -/
theorem search_drop_iff (hpat : pat ≠ []) (n : ℕ) :
    (search pat (l.drop n)).map (n + ·) = search pat l ↔ ∀ j < n, ¬pat <+: l.drop j := by
  constructor
  · intro h j hj hat
    cases hs : search pat l with
    | none => exact (search_eq_none_iff hpat).mp hs j hat
    | some i =>
      rw [hs, Option.map_eq_some_iff] at h
      obtain ⟨k, -, hk⟩ := h
      exact ((search_eq_some_iff hpat).mp hs).2 j (by omega) hat
  · intro hfront
    cases hs : search pat (l.drop n) with
    | none =>
      refine ((search_eq_none_iff hpat).mpr fun i hat ↦ ?_).symm
      rcases Nat.lt_or_ge i n with hlt | hge
      · exact hfront i hlt hat
      · refine (search_eq_none_iff hpat).mp hs (i - n) ?_
        rw [List.drop_drop, Nat.add_sub_cancel' hge]
        exact hat
    | some k =>
      obtain ⟨hat, hfirst⟩ := (search_eq_some_iff hpat).mp hs
      rw [List.drop_drop] at hat
      refine ((search_eq_some_iff hpat).mpr ⟨hat, fun j hj hj' ↦ ?_⟩).symm
      rcases Nat.lt_or_ge j n with hlt | hge
      · exact hfront j hlt hj'
      · refine hfirst (j - n) (by omega) ?_
        rw [List.drop_drop, Nat.add_sub_cancel' hge]
        exact hj'

/-! ## Frames -/

/-- At most that many frames, and what is behind them. -/
def framesUpTo (pat : List α) : ℕ → List α → List (List α) × List α
  | 0, l => ([], l)
  | n + 1, l =>
    match search pat l with
    | none => ([], l)
    | some i =>
      let behind := framesUpTo pat n (l.drop (i + pat.length))
      (l.take i :: behind.1, behind.2)

/-- The frames and the rest. Each frame ends with a delimiter, so there are not more of them than
the stream is long. -/
def frames (pat l : List α) : List (List α) × List α := framesUpTo pat l.length l

theorem framesUpTo_eq_frames (hpat : pat ≠ []) {n : ℕ} (h : l.length ≤ n) :
    framesUpTo pat n l = frames pat l := by
  induction hlen : l.length using Nat.strong_induction_on generalizing l n with
  | _ k ih =>
    subst hlen
    have hpos := List.length_pos_iff.mpr hpat
    rw [frames]
    cases hs : search pat l with
    | none =>
      cases n with
      | zero =>
        rw [List.eq_nil_of_length_eq_zero (Nat.le_zero.mp h)]
        rfl
      | succ n =>
        cases hl : l.length with
        | zero => rw [framesUpTo, framesUpTo, hs]
        | succ k => rw [framesUpTo, framesUpTo, hs]
    | some i =>
      have hle := add_length_le hpat hs
      obtain ⟨n, rfl⟩ : ∃ k, n = k + 1 := ⟨n - 1, by omega⟩
      obtain ⟨k, hk⟩ : ∃ k, l.length = k + 1 := ⟨l.length - 1, by omega⟩
      have hshort : (l.drop (i + pat.length)).length = l.length - (i + pat.length) :=
        List.length_drop
      have hbehind (j : ℕ) (hj : l.length ≤ j + 1) :
          framesUpTo pat j (l.drop (i + pat.length)) = frames pat (l.drop (i + pat.length)) :=
        ih _ (by omega) (by omega) rfl
      rw [hk, framesUpTo, framesUpTo, hs]
      dsimp only
      rw [hbehind n h, hbehind k hk.le]

theorem frames_of_none (h : search pat l = none) : frames pat l = ([], l) := by
  rw [frames]
  cases hl : l.length with
  | zero => rfl
  | succ k => rw [framesUpTo, h]

theorem frames_of_some (hpat : pat ≠ []) (h : search pat l = some i) :
    frames pat l = (l.take i :: (frames pat (l.drop (i + pat.length))).1,
      (frames pat (l.drop (i + pat.length))).2) := by
  have hle := add_length_le hpat h
  have hpos := List.length_pos_iff.mpr hpat
  obtain ⟨k, hk⟩ : ∃ k, l.length = k + 1 := ⟨l.length - 1, by omega⟩
  have hbehind : framesUpTo pat k (l.drop (i + pat.length)) =
      frames pat (l.drop (i + pat.length)) := by
    refine framesUpTo_eq_frames hpat ?_
    rw [List.length_drop]
    omega
  nth_rewrite 1 [frames]
  rw [hk, framesUpTo, h]
  dsimp only
  rw [hbehind]

/-- Induction on the frames of a stream. -/
theorem frames_induction (hpat : pat ≠ []) {P : List α → Prop}
    (done : ∀ l, search pat l = none → P l)
    (frame : ∀ l i, search pat l = some i → P (l.drop (i + pat.length)) → P l) (l : List α) :
    P l := by
  induction hlen : l.length using Nat.strong_induction_on generalizing l with
  | _ k ih =>
    subst hlen
    cases hs : search pat l with
    | none => exact done l hs
    | some i =>
      have hle := add_length_le hpat hs
      have hpos := List.length_pos_iff.mpr hpat
      refine frame l i hs (ih _ ?_ _ rfl)
      rw [List.length_drop]
      omega

/-- **More of a stream adds to its frames.** The frames so far stay, and the others are those of
the rest with what came behind it. -/
theorem frames_append (hpat : pat ≠ []) (l m : List α) :
    frames pat (l ++ m) = ((frames pat l).1 ++ (frames pat ((frames pat l).2 ++ m)).1,
      (frames pat ((frames pat l).2 ++ m)).2) := by
  induction l using frames_induction hpat with
  | done l h =>
    rw [frames_of_none h]
    rfl
  | frame l i h ih =>
    have hle := add_length_le hpat h
    have htake : (l ++ m).take i = l.take i := List.take_append_of_le_length (by omega)
    have hdrop : (l ++ m).drop (i + pat.length) = l.drop (i + pat.length) ++ m :=
      List.drop_append_of_le_length hle
    rw [frames_of_some hpat (search_append hpat h), frames_of_some hpat h, htake, hdrop, ih]
    rfl

/-- Frames, delimiters and rest are the stream. -/
theorem flatten_frames (hpat : pat ≠ []) (l : List α) :
    ((frames pat l).1.map (· ++ pat)).flatten ++ (frames pat l).2 = l := by
  induction l using frames_induction hpat with
  | done l h =>
    rw [frames_of_none h]
    rfl
  | frame l i h ih =>
    have hat := ((search_eq_some_iff hpat).mp h).1
    have hpiece : pat ++ l.drop (i + pat.length) = l.drop i := by
      obtain ⟨behind, hbehind⟩ := hat
      rw [← List.drop_drop, ← hbehind, List.drop_left]
    rw [frames_of_some hpat h, List.map_cons, List.flatten_cons, List.append_assoc,
      List.append_assoc, ih, hpiece, List.take_append_drop]

/-- A message whose delimiter stands behind it for the first time. -/
def Clean (pat msg : List α) : Prop := search pat (msg ++ pat) = some msg.length

instance (pat : List α) : DecidablePred (Clean pat) := fun _ ↦
  inferInstanceAs (Decidable (_ = _))

/-- The frames of clean messages are the messages. -/
theorem frames_flatten (hpat : pat ≠ []) {msgs : List (List α)} (h : ∀ msg ∈ msgs, Clean pat msg)
    (hrest : search pat m = none) :
    frames pat ((msgs.map (· ++ pat)).flatten ++ m) = (msgs, m) := by
  induction msgs with
  | nil => exact frames_of_none hrest
  | cons msg msgs ih =>
    have hclean : search pat (msg ++ pat) = some msg.length := h msg List.mem_cons_self
    have hdrop : (msg ++ pat ++ ((msgs.map (· ++ pat)).flatten ++ m)).drop
        (msg.length + pat.length) = (msgs.map (· ++ pat)).flatten ++ m := by
      rw [← List.length_append, List.drop_left]
    have htake : (msg ++ pat ++ ((msgs.map (· ++ pat)).flatten ++ m)).take msg.length = msg := by
      rw [List.append_assoc, List.take_left]
    rw [List.map_cons, List.flatten_cons, List.append_assoc,
      frames_of_some hpat (search_append hpat hclean), hdrop, htake,
      ih fun msg hmsg ↦ h msg (List.mem_cons_of_mem _ hmsg)]

end Machine
