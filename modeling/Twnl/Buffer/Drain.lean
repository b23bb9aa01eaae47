import Mathlib.Algebra.BigOperators.Intervals
import Twnl.Buffer.Spec

/-!
# What the write helpers move

`writeFd` offers all that is readable and moves what the kernel takes. `writeFdET` repeats that
until a write moves nothing, and then tells from the saved `errno` why it stopped.

## The two ends of the loop

A script of answers either stops short of the content, at an answer that takes nothing while
something is left, or it takes all there is, and then the loop makes one more write, of no bytes.
`writeFdETLoop_of_stops` and `writeFdETLoop_of_takesAll` are the two cases, and every script is in
one of them (`stops_or_takesAll`). In the second the last write returns zero without an error, so
that the helper returns zero, *whatever it moved before*.
-/

namespace Twnl

namespace WriteResult

/-- The number of bytes an answer is ready to take. -/
def count : WriteResult → ℕ
  | accepts count => count
  | fails _ => 0

/-- What the first `j` answers of a script are ready to take. -/
def total (answers : ℕ → WriteResult) (j : ℕ) : ℕ := ∑ i ∈ Finset.range j, (answers i).count

theorem total_succ (answers : ℕ → WriteResult) (j : ℕ) :
    total answers (j + 1) = (answers 0).count + total (fun i ↦ answers (i + 1)) j := by
  rw [total, Finset.sum_range_succ', add_comm, total]

/-- Answers that each take something take at least a byte each. -/
theorem length_le_total {answers : ℕ → WriteResult} {j : ℕ}
    (hpos : ∀ i < j, 0 < (answers i).count) : j ≤ total answers j := by
  induction j with
  | zero => exact Nat.zero_le _
  | succ j ih =>
    have hj := hpos j (Nat.lt_succ_self j)
    have hle := ih fun i hi ↦ hpos i (Nat.lt_succ_of_lt hi)
    rw [total, Finset.sum_range_succ, ← total]
    omega

/-- The answers before the `j`-th each take something, all together less than `n`, and the `j`-th
takes nothing. -/
structure Stops (answers : ℕ → WriteResult) (n j : ℕ) : Prop where
  pos : ∀ i < j, 0 < (answers i).count
  total_lt : total answers j < n
  stop : (answers j).count = 0

/-- The answers before the `j`-th each take something, and it takes all of them to take `n`. -/
structure TakesAll (answers : ℕ → WriteResult) (n j : ℕ) : Prop where
  pos : ∀ i < j, 0 < (answers i).count
  total_lt : ∀ i < j, total answers i < n
  le_total : n ≤ total answers j

theorem Stops.index_le {answers : ℕ → WriteResult} {n j : ℕ} (h : Stops answers n j) : j ≤ n :=
  Nat.le_trans (length_le_total h.pos) (Nat.le_of_lt h.total_lt)

theorem TakesAll.index_le {answers : ℕ → WriteResult} {n j : ℕ} (h : TakesAll answers n j) :
    j ≤ n := by
  cases j with
  | zero => exact Nat.zero_le _
  | succ j =>
    have hlt := h.total_lt j (Nat.lt_succ_self j)
    have hle := length_le_total fun i hi ↦ h.pos i (Nat.lt_succ_of_lt hi)
    omega

theorem stops_or_takesAll (answers : ℕ → WriteResult) (n : ℕ) :
    (∃ j, Stops answers n j) ∨ ∃ j, TakesAll answers n j := by
  have hend : ∃ j, n ≤ total answers j ∨ (answers j).count = 0 := by
    by_contra hnone
    simp only [not_exists, not_or] at hnone
    have hle : n ≤ total answers n := length_le_total fun i _ ↦ Nat.pos_of_ne_zero (hnone i).2
    exact (hnone n).1 hle
  have hbefore : ∀ i < Nat.find hend, 0 < (answers i).count ∧ total answers i < n := by
    intro i hi
    obtain ⟨hlt, hcount⟩ := not_or.mp (Nat.find_min hend hi)
    exact ⟨Nat.pos_of_ne_zero hcount, Nat.not_le.mp hlt⟩
  rcases Nat.lt_or_ge (total answers (Nat.find hend)) n with hlt | hge
  · have hstop := (Nat.find_spec hend).resolve_left (Nat.not_le.mpr hlt)
    exact Or.inl ⟨_, fun i hi ↦ (hbefore i hi).1, hlt, hstop⟩
  · exact Or.inr ⟨_, fun i hi ↦ (hbefore i hi).1, fun i hi ↦ (hbefore i hi).2, hge⟩

end WriteResult

namespace Buffer

open WriteResult

variable {b : Buffer} {answers : ℕ → WriteResult} {j n : ℕ}

/-- Moving the reader up by what was taken leaves the rest. -/
theorem writeFd_spec (h : b.WF) (answer : WriteResult) (saved : Option Errno) :
    (b.writeFd answer saved).buffer.WF ∧
      (b.writeFd answer saved).buffer.readable = b.readable.drop answer.count ∧
      (b.writeFd answer saved).taken = b.readable.take answer.count ∧
      (b.writeFd answer saved).ret = answer.ret b.readable := by
  cases answer with
  | fails e => exact ⟨h, List.drop_zero.symm, List.take_zero.symm, rfl⟩
  | accepts count =>
    have hlen : (b.readable.take count).length ≤ b.writerIndex - b.readerIndex := by
      rw [← h.readableBytes_eq, ← h.length_readable]
      exact List.length_take_le' _ _
    have hr := h.reader_le
    have hw := h.writerIndex_le
    have hmax := maxSize_add_maxSize_lt
    have hadd : sizeAdd b.readerIndex (b.readable.take count).length =
        b.readerIndex + (b.readable.take count).length := sizeAdd_eq (by omega)
    refine ⟨⟨⟨?_, h.writer_le⟩, h.size_le⟩, ?_, rfl, rfl⟩
    · change sizeAdd b.readerIndex (b.readable.take count).length ≤ b.writerIndex
      omega
    · change b.buffer.window (sizeAdd b.readerIndex (b.readable.take count).length) _ = _
      rw [hadd, List.window_add_left]
      change b.readable.drop (b.readable.take count).length = b.readable.drop count
      rcases Nat.le_total count b.readable.length with hle | hge
      · rw [List.length_take_of_le hle]
      · rw [List.take_of_length_le hge, List.drop_length, List.drop_of_length_le hge]

/-- A round that moves something goes on. -/
theorem writeFdETLoop_succ (h : b.WF) (n : ℤ) (saved : Option Errno) (taken : List Byte) (fuel : ℕ)
    (hcount : 0 < (answers 0).count) (hlen : 0 < b.readable.length) :
    ∃ b' : Buffer, b'.WF ∧ b'.readable = b.readable.drop (answers 0).count ∧
      b.writeFdETLoop n saved taken answers (fuel + 1) =
        b'.writeFdETLoop (n + (b.readable.take (answers 0).count).length) saved
          (taken ++ b.readable.take (answers 0).count) (fun i ↦ answers (i + 1)) fuel := by
  obtain ⟨hwf, hread, htaken, hret⟩ := writeFd_spec h (answers 0) saved
  cases hanswer : answers 0 with
  | fails e =>
    rw [hanswer] at hcount
    exact absurd hcount (Nat.lt_irrefl 0)
  | accepts count =>
    rw [hanswer] at hcount hwf hread htaken hret
    have hpos : ¬((WriteResult.accepts count).ret b.readable ≤ 0) := by
      have hlen' : 0 < (b.readable.take count).length := by
        rw [List.length_take]
        exact lt_min hcount hlen
      rw [WriteResult.ret]
      omega
    refine ⟨_, hwf, hread, ?_⟩
    rw [writeFdETLoop, hanswer]
    simp only [hret, if_neg hpos, htaken]
    rfl

/-- Only a write that takes something returns a positive count. -/
theorem count_pos_of_ret_pos {answer : WriteResult} {offered : List Byte}
    (h : 0 < answer.ret offered) : 0 < answer.count ∧ 0 < offered.length := by
  cases answer with
  | fails e => exact absurd h (by change ¬(0 : ℤ) < -1; decide)
  | accepts count =>
    change (0 : ℤ) < (offered.take count).length at h
    rw [List.length_take] at h
    exact ⟨by change 0 < count; omega, by omega⟩

/-- A round that moves nothing is the last. -/
theorem writeFdETLoop_last (n : ℤ) (taken : List Byte) (fuel : ℕ) {saved : Option Errno}
    {w : Written} (hw : b.writeFd (answers 0) saved = w) (hret : w.ret ≤ 0) :
    b.writeFdETLoop n saved taken answers (fuel + 1) =
      if w.savedErrno = some .EAGAIN then some { w with ret := n, taken := taken ++ w.taken }
      else some { w with taken := taken ++ w.taken } := by
  rw [writeFdETLoop, hw]
  exact if_pos hret

/-- The last round of a script that stops short. -/
theorem writeFdETLoop_stop (h : b.WF) (n : ℤ) (taken : List Byte) (fuel : ℕ)
    {saved : Option Errno} (hcount : (answers 0).count = 0) (hsaved : saved ≠ some .EAGAIN) :
    ∃ w, b.writeFdETLoop n saved taken answers (fuel + 1) = some w ∧ w.buffer = b ∧
      w.taken = taken ∧ ((answers 0 = .fails .EAGAIN ∧ w.ret = n) ∨
        (∃ e, answers 0 = .fails e ∧ e ≠ .EAGAIN ∧ w.ret = -1 ∧ w.savedErrno = some e) ∨
        (answers 0 = .accepts 0 ∧ w.ret = 0 ∧ w.savedErrno = saved)) := by
  cases hanswer : answers 0 with
  | fails e =>
    have hw : b.writeFd (answers 0) saved = ⟨-1, some e, [], b⟩ := by rw [hanswer]; rfl
    have hloop := writeFdETLoop_last n taken fuel hw
      (by change (-1 : ℤ) ≤ 0; decide)
    by_cases he : e = .EAGAIN
    · subst he
      exact ⟨_, hloop, rfl, List.append_nil _, Or.inl ⟨rfl, rfl⟩⟩
    · rw [if_neg (by rwa [Option.some_inj])] at hloop
      exact ⟨_, hloop, rfl, List.append_nil _, Or.inr (Or.inl ⟨e, rfl, he, rfl, rfl⟩)⟩
  | accepts count =>
    have hzero : count = 0 := by rwa [hanswer] at hcount
    subst hzero
    have hadd : sizeAdd b.readerIndex 0 = b.readerIndex := by
      have hr := h.reader_le
      have hw := h.writerIndex_le
      have hmax := maxSize_add_maxSize_lt
      exact sizeAdd_eq (by omega)
    have hw : b.writeFd (answers 0) saved = ⟨0, saved, [], b⟩ := by
      rw [hanswer]
      change (⟨0, saved, [], { b with readerIndex := sizeAdd b.readerIndex 0 }⟩ : Written) = _
      rw [hadd]
    have hloop := writeFdETLoop_last n taken fuel hw le_rfl
    rw [if_neg hsaved] at hloop
    exact ⟨_, hloop, rfl, List.append_nil _, Or.inr (Or.inr ⟨rfl, rfl, rfl⟩)⟩

/-- The loop ends, and what it moved and what it left make up what there was. -/
theorem writeFdETLoop_spec (h : b.WF) (n : ℤ) (saved : Option Errno) (taken : List Byte) (fuel : ℕ)
    (hfuel : b.readable.length < fuel) :
    ∃ w moved, b.writeFdETLoop n saved taken answers fuel = some w ∧ w.buffer.WF ∧
      w.taken = taken ++ moved ∧ moved ++ w.buffer.readable = b.readable := by
  induction fuel generalizing b n saved taken answers with
  | zero => exact absurd hfuel (Nat.not_lt_zero _)
  | succ fuel ih =>
    obtain ⟨hwf, hread, htaken, hret⟩ := writeFd_spec h (answers 0) saved
    by_cases hlast : (b.writeFd (answers 0) saved).ret ≤ 0
    · have hloop := writeFdETLoop_last n taken fuel rfl hlast
      have hsplit : (b.writeFd (answers 0) saved).taken ++
          (b.writeFd (answers 0) saved).buffer.readable = b.readable := by
        rw [htaken, hread, List.take_append_drop]
      split at hloop
      · exact ⟨_, _, hloop, hwf, rfl, hsplit⟩
      · exact ⟨_, _, hloop, hwf, rfl, hsplit⟩
    · rw [hret, Int.not_le] at hlast
      -- a round that goes on has taken something, so the fuel suffices
      obtain ⟨hcount, hlen⟩ := count_pos_of_ret_pos hlast
      obtain ⟨b', hwf', hread', hloop⟩ := writeFdETLoop_succ h n saved taken fuel hcount hlen
      have hlen' : b'.readable.length < fuel := by
        rw [hread', List.length_drop]
        omega
      obtain ⟨w, moved, hw, hwfw, htakenw, hsplit⟩ := ih hwf' _ _ _ hlen'
      refine ⟨w, b.readable.take (answers 0).count ++ moved, hloop.trans hw, hwfw, ?_, ?_⟩
      · rw [htakenw, List.append_assoc]
      · rw [List.append_assoc, hsplit, hread', List.take_append_drop]

/-- **Stopping short.** A script that takes nothing while something is left leaves it, and the
helper returns the count or, where the refusal was no refusal to wait, the result of the last
write. -/
theorem writeFdETLoop_of_stops (h : b.WF) (n : ℤ) (taken : List Byte) {saved : Option Errno}
    {fuel : ℕ} (hs : Stops answers b.readable.length j) (hfuel : j < fuel)
    (hsaved : saved ≠ some .EAGAIN) :
    ∃ w, b.writeFdETLoop n saved taken answers fuel = some w ∧ w.buffer.WF ∧
      w.buffer.readable = b.readable.drop (total answers j) ∧
      w.taken = taken ++ b.readable.take (total answers j) ∧
      ((answers j = .fails .EAGAIN ∧ w.ret = n + total answers j) ∨
        (∃ e, answers j = .fails e ∧ e ≠ .EAGAIN ∧ w.ret = -1 ∧ w.savedErrno = some e) ∨
        (answers j = .accepts 0 ∧ w.ret = 0 ∧ w.savedErrno = saved)) := by
  induction j generalizing b answers n taken fuel with
  | zero =>
    obtain ⟨fuel, rfl⟩ := Nat.exists_eq_succ_of_ne_zero (Nat.ne_of_gt hfuel)
    obtain ⟨w, hw, hbuf, htaken, hret⟩ := writeFdETLoop_stop h n taken fuel hs.stop hsaved
    refine ⟨w, hw, hbuf ▸ h, ?_, ?_, ?_⟩
    · rw [hbuf]
      exact List.drop_zero.symm
    · rw [htaken]
      exact (List.append_nil _).symm
    · have hzero : n + (total answers 0 : ℤ) = n := Int.add_zero n
      rw [hzero]
      exact hret
  | succ j ih =>
    obtain ⟨fuel, rfl⟩ := Nat.exists_eq_succ_of_ne_zero (Nat.ne_of_gt (Nat.zero_lt_of_lt hfuel))
    have htotal := total_succ answers j
    have hlt := hs.total_lt
    obtain ⟨b', hwf, hread, hloop⟩ := writeFdETLoop_succ h n saved taken fuel
      (hs.pos 0 (Nat.succ_pos j)) (by omega)
    have hlen : b'.readable.length = b.readable.length - (answers 0).count := by
      rw [hread, List.length_drop]
    have hs' : Stops (fun i ↦ answers (i + 1)) b'.readable.length j :=
      ⟨fun i hi ↦ hs.pos (i + 1) (Nat.succ_lt_succ hi), by omega, hs.stop⟩
    obtain ⟨w, hw, hwfw, hreadw, htaken, hret⟩ := ih hwf _ _ hs' (Nat.lt_of_succ_lt_succ hfuel)
    refine ⟨w, hloop.trans hw, hwfw, ?_, ?_, ?_⟩
    · rw [hreadw, hread, List.drop_drop, htotal]
    · rw [htaken, hread, htotal, List.append_assoc, List.take_add]
    · have hcast : n + ((b.readable.take (answers 0).count).length : ℤ) +
          total (fun i ↦ answers (i + 1)) j = n + total answers (j + 1) := by
        rw [List.length_take_of_le (by omega), htotal]
        omega
      rw [hcast] at hret
      exact hret

/-- **Taking everything.** A script that takes all there is ends in a write of no bytes, and the
helper returns its zero. -/
theorem writeFdETLoop_of_takesAll (h : b.WF) (n : ℤ) (taken : List Byte) {saved : Option Errno}
    {fuel c : ℕ} (ht : TakesAll answers b.readable.length j) (hlast : answers j = .accepts c)
    (hfuel : j < fuel) (hsaved : saved ≠ some .EAGAIN) :
    ∃ w, b.writeFdETLoop n saved taken answers fuel = some w ∧ w.buffer.WF ∧
      w.buffer.readable = [] ∧ w.taken = taken ++ b.readable ∧ w.ret = 0 ∧
      w.savedErrno = saved := by
  induction j generalizing b answers n taken fuel with
  | zero =>
    obtain ⟨fuel, rfl⟩ := Nat.exists_eq_succ_of_ne_zero (Nat.ne_of_gt hfuel)
    have hnil : b.readable = [] := List.length_eq_zero_iff.mp (Nat.le_zero.mp ht.le_total)
    obtain ⟨hwf, hread, htaken, hret⟩ := writeFd_spec h (answers 0) saved
    -- the write of no bytes, whatever the kernel would take
    have hzero : (b.writeFd (answers 0) saved).ret = 0 := by
      rw [hret, hnil, hlast, WriteResult.ret, List.take_nil]
      rfl
    have hkeep : (b.writeFd (answers 0) saved).savedErrno = saved := by rw [hlast]; rfl
    have hloop := writeFdETLoop_last n taken fuel rfl (le_of_eq hzero)
    rw [hkeep, if_neg hsaved] at hloop
    refine ⟨_, hloop, hwf, ?_, ?_, hzero, rfl⟩
    · rw [hread, hnil, List.drop_nil]
    · rw [htaken, hnil, List.take_nil]
  | succ j ih =>
    obtain ⟨fuel, rfl⟩ := Nat.exists_eq_succ_of_ne_zero (Nat.ne_of_gt (Nat.zero_lt_of_lt hfuel))
    obtain ⟨b', hwf, hread, hloop⟩ := writeFdETLoop_succ h n saved taken fuel
      (ht.pos 0 (Nat.succ_pos j)) (ht.total_lt 0 (Nat.succ_pos j))
    have hlen : b'.readable.length = b.readable.length - (answers 0).count := by
      rw [hread, List.length_drop]
    have ht' : TakesAll (fun i ↦ answers (i + 1)) b'.readable.length j := by
      refine ⟨fun i hi ↦ ht.pos (i + 1) (Nat.succ_lt_succ hi), fun i hi ↦ ?_, ?_⟩
      · have hlt := ht.total_lt (i + 1) (Nat.succ_lt_succ hi)
        rw [total_succ] at hlt
        omega
      · have hle := ht.le_total
        rw [total_succ] at hle
        omega
    obtain ⟨w, hw, hwfw, hreadw, htaken, hret⟩ :=
      ih hwf _ _ ht' hlast (Nat.lt_of_succ_lt_succ hfuel)
    refine ⟨w, hloop.trans hw, hwfw, hreadw, ?_, hret⟩
    rw [htaken, hread, List.append_assoc, List.take_append_drop]

end Buffer

end Twnl
