import Twnl.Buffer.Spec

/-!
# What the read helpers deliver

`readFd` reads into the free tail and past it into a buffer on the stack, whose bytes it appends.
`readFdET` repeats that until a read delivers nothing. What it has delivered by then is in the
buffer in each case (`readFdET_ok`); its return value is the number of those bytes only if it
stopped at `EAGAIN`, and is the zero or the error of the last read otherwise.
-/

namespace Twnl

namespace ReadResult

/-- The bytes delivered by the answers up to the first that delivers none. -/
def delivered : List ReadResult → List Byte
  | data (c :: cs) :: answers => c :: cs ++ delivered answers
  | data [] :: _ | fails _ :: _ | [] => []

/-- The bytes delivered by the first answer. -/
def first : List ReadResult → List Byte
  | data bytes :: _ => bytes
  | fails _ :: _ | [] => []

/-- The first answer that delivers none; past their end there is nothing to read. -/
def last : List ReadResult → ReadResult
  | data (_ :: _) :: answers => last answers
  | data [] :: _ => data []
  | fails e :: _ => fails e
  | [] => fails .EAGAIN

/-- The return value of a read. -/
def ret : ReadResult → ℤ
  | data bytes => bytes.length
  | fails _ => -1

theorem ret_eq_zero_iff {answer : ReadResult} : answer.ret = 0 ↔ answer = data [] := by
  cases answer with
  | fails e => exact iff_of_false (fun hzero : (-1 : ℤ) = 0 ↦ absurd hzero (by decide)) nofun
  | data bytes =>
    rw [ret, Int.natCast_eq_zero, List.length_eq_zero_iff, data.injEq]

end ReadResult

namespace Buffer

open ReadResult

variable {b b' : Buffer} {answer : ReadResult} {reads : List ReadResult} {n n' : ℤ}
  {saved saved' : Option Errno}

/-- A read that returns has put what was delivered behind what was there. -/
theorem readFd_ok (h : b.WF) (hread : b.readFd answer saved = .ok (n, saved', b')) :
    b'.WF ∧ n = answer.ret ∧
      ((∃ bytes, answer = .data bytes ∧ saved' = saved ∧ b'.readable = b.readable ++ bytes) ∨
        ∃ e, answer = .fails e ∧ saved' = some e ∧ b' = b) := by
  cases answer with
  | fails e =>
    rw [readFd, Except.ok.injEq, Prod.mk.injEq, Prod.mk.injEq] at hread
    obtain ⟨rfl, rfl, rfl⟩ := hread
    exact ⟨h, rfl, Or.inr ⟨e, rfl, rfl, rfl⟩⟩
  | data bytes =>
    rw [readFd] at hread
    split at hread
    · exact absurd hread (by simp)
    · split at hread
      · rename_i hle
        obtain ⟨hcopy, hwf, hreadable, -⟩ := copyIn_ok_of_le h hle
        rw [hcopy, bind_ok, Except.ok.injEq, Prod.mk.injEq, Prod.mk.injEq] at hread
        obtain ⟨rfl, rfl, rfl⟩ := hread
        rw [h.sizeAdd_writerIndex hle]
        exact ⟨hwf, rfl, Or.inl ⟨bytes, rfl, rfl, hreadable⟩⟩
      · rename_i hgt
        have htake : (bytes.take b.writableBytes).length = b.writableBytes :=
          List.length_take_of_le (Nat.le_of_not_le hgt)
        obtain ⟨hcopy, hwf, hreadable, hsize⟩ := copyIn_ok_of_le h (Nat.le_of_eq htake)
        rw [hcopy, bind_ok] at hread
        obtain ⟨spilled, hspilled, hread⟩ := bind_eq_ok.mp hread
        rw [Except.ok.injEq, Prod.mk.injEq, Prod.mk.injEq] at hread
        obtain ⟨rfl, rfl, rfl⟩ := hread
        have hfull : b.writerIndex + (bytes.take b.writableBytes).length = b.size := by
          have hw := h.writer_le
          rw [htake, h.writableBytes_eq]
          omega
        rw [hfull, ← hsize] at hwf hreadable
        obtain ⟨hwf', hread'⟩ := append_ok hwf hspilled
        refine ⟨hwf', rfl, Or.inl ⟨bytes, rfl, rfl, ?_⟩⟩
        rw [hread', hreadable, List.append_assoc, List.take_append_drop]

theorem readFd_error {e : Fault} (hread : b.readFd answer saved = .error e) : BufferFault e := by
  cases answer with
  | fails e' => exact absurd hread (by simp [readFd])
  | data bytes =>
    rw [readFd] at hread
    split at hread
    · rw [Except.error.injEq] at hread
      exact hread ▸ trivial
    · split at hread
      · rcases bind_eq_error.mp hread with h | ⟨_, _, h⟩
        · exact copyIn_error h
        · exact absurd h (by simp)
      · rcases bind_eq_error.mp hread with h | ⟨_, _, h⟩
        · exact copyIn_error h
        · rcases bind_eq_error.mp h with h | ⟨_, _, h⟩
          · exact append_error h
          · exact absurd h (by simp)

/-- A drain that returns makes a first read, and goes on if that delivers something. -/
theorem readFdET_cons_ok
    (hread : b.readFdET n saved (answer :: reads) = .ok (n', saved', b')) :
    ∃ len saved₁ b₁, b.readFd answer saved = .ok (len, saved₁, b₁) ∧
      ((0 < len ∧ readFdET b₁ (n + len) saved₁ reads = .ok (n', saved', b')) ∨
        (len ≤ 0 ∧ saved₁ = some .EAGAIN ∧ n' = n ∧ b' = b₁) ∨
        (len ≤ 0 ∧ saved₁ ≠ some .EAGAIN ∧ n' = len ∧ b' = b₁)) := by
  rw [readFdET] at hread
  obtain ⟨⟨len, saved₁, b₁⟩, hfirst, hrest⟩ := bind_eq_ok.mp hread
  refine ⟨len, saved₁, b₁, hfirst, ?_⟩
  change (if len ≤ 0 then _ else _) = _ at hrest
  by_cases hlen : len ≤ 0
  · rw [if_pos hlen] at hrest
    by_cases hwait : saved₁ = some .EAGAIN
    · rw [if_pos hwait, Except.ok.injEq, Prod.mk.injEq, Prod.mk.injEq] at hrest
      exact Or.inr (Or.inl ⟨hlen, hwait, hrest.1.symm, hrest.2.2.symm⟩)
    · rw [if_neg hwait, Except.ok.injEq, Prod.mk.injEq, Prod.mk.injEq] at hrest
      exact Or.inr (Or.inr ⟨hlen, hwait, hrest.1.symm, hrest.2.2.symm⟩)
  · rw [if_neg hlen] at hrest
    exact Or.inl ⟨by omega, hrest⟩

/-- What a drain that returns has delivered, and what it returns. -/
theorem readFdET_ok (h : b.WF) (hsaved : saved ≠ some .EAGAIN)
    (hread : b.readFdET n saved reads = .ok (n', saved', b')) :
    b'.WF ∧ b'.readable = b.readable ++ delivered reads ∧
      n' = if last reads = .fails .EAGAIN then n + (delivered reads).length
        else (last reads).ret := by
  induction reads generalizing b n with
  | nil =>
    rw [readFdET, Except.ok.injEq, Prod.mk.injEq, Prod.mk.injEq] at hread
    obtain ⟨rfl, rfl, rfl⟩ := hread
    exact ⟨h, (List.append_nil _).symm, (Int.add_zero n).symm⟩
  | cons answer answers ih =>
    obtain ⟨len, saved₁, b₁, hfirst, hrest⟩ := readFdET_cons_ok hread
    obtain ⟨hwf, hlen, ⟨bytes, rfl, rfl, hreadable⟩ | ⟨e, rfl, rfl, rfl⟩⟩ := readFd_ok h hfirst
    · cases bytes with
      | nil =>
        -- the end of the input: the loop returns this read, not the count
        rcases hrest with ⟨hpos, -⟩ | ⟨-, hwait, -⟩ | ⟨-, -, rfl, rfl⟩
        · exact absurd (lt_of_lt_of_eq hpos hlen) (Int.lt_irrefl 0)
        · exact absurd hwait hsaved
        · have hlast : last (.data [] :: answers) ≠ .fails .EAGAIN := ReadResult.noConfusion
          exact ⟨hwf, hreadable, hlen.trans (if_neg hlast).symm⟩
      | cons c cs =>
        have hpos : 0 < len := by
          rw [hlen, ReadResult.ret, List.length_cons]
          omega
        have hrest := (hrest.resolve_right (by omega)).2
        obtain ⟨hwf', hread', hn⟩ := ih hwf hrest
        refine ⟨hwf', ?_, hn.trans ?_⟩
        · rw [hread', hreadable, List.append_assoc, delivered]
        · rw [last, delivered, List.length_append, hlen, ReadResult.ret]
          congr 1
          omega
    · rcases hrest with ⟨hpos, -⟩ | ⟨-, hwait, rfl, rfl⟩ | ⟨-, hwait, rfl, rfl⟩
      · have hneg : (0 : ℤ) < -1 := lt_of_lt_of_eq hpos hlen
        exact absurd hneg (by decide)
      · obtain rfl := Option.some_inj.mp hwait
        exact ⟨h, (List.append_nil _).symm, (Int.add_zero n').symm⟩
      · have hlast : last (.fails e :: answers) ≠ .fails .EAGAIN := by
          intro heq
          exact hwait (congrArg some (ReadResult.fails.inj heq))
        exact ⟨h, (List.append_nil _).symm, hlen.trans (if_neg hlast).symm⟩

theorem readFdET_error {e : Fault} (hread : b.readFdET n saved reads = .error e) :
    BufferFault e := by
  induction reads generalizing b n saved with
  | nil => exact absurd hread (by simp [readFdET])
  | cons answer answers ih =>
    rw [readFdET] at hread
    rcases bind_eq_error.mp hread with h | ⟨⟨len, saved₁, b₁⟩, _, h⟩
    · exact readFd_error h
    · change (if len ≤ 0 then _ else _) = _ at h
      split at h
      · split at h <;> exact absurd h (by simp)
      · exact ih h

end Buffer

end Twnl
