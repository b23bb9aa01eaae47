import Twnl.TcpConnection.Moves

/-!
# The end of a drain

`handleWrite` has three things to do once the output buffer is empty, and does them when its helper
returns a positive count. In level-triggered mode it does. The edge-triggered helper returns the
zero of its last, empty write whenever the kernel takes everything, so that they are done only if
the kernel stops short, when there is nothing to do yet (`drainSound_iff`).
-/

namespace Twnl

namespace TcpConnection

open Buffer WriteResult

variable {k : Masks} {m : Mode} {s s' : Session} {writes : ℕ → WriteResult}

@[simp] theorem noteWriteComplete_log (s : Session) : (noteWriteComplete s).log = s.log := by
  rw [noteWriteComplete]
  split <;> rfl

@[simp] theorem noteWriteComplete_pendingFunctors (s : Session) :
    (noteWriteComplete s).pendingFunctors = s.pendingFunctors ++
      (if s.conn.writeCompleteCallback then [.writeCompleteCallback] else []) := by
  rw [noteWriteComplete]
  split
  · rfl
  · exact (List.append_nil _).symm

theorem Called.isWriting_disableWriting (h : Called k s .disableWriting s') :
    s'.conn.channel.isWriting k = false := by
  rw [Channel.isWriting, h.events]
  exact Channel.isWriting_disableWriting k s.conn.channel

theorem Called.isWriting_enableWriting (h : Called k s .enableWriting s')
    (hk : k.kWriteEvent ≠ 0) : s'.conn.channel.isWriting k = true := by
  rw [Channel.isWriting, h.events]
  exact Channel.isWriting_enableWriting k s.conn.channel hk

/-! ## One drain -/

theorem handleWrite_of_not_writing (h : s.conn.channel.isWriting k = false) :
    handleWrite k s writes = .ok s := by
  rw [handleWrite, h]
  rfl

/-- A drain that leaves something, or whose helper returns no count, leaves the rest as it is. -/
theorem handleWrite_of_left {w : Written} (hwriting : s.conn.channel.isWriting k = true)
    (hw : writeOutput k s.conn.outputBuffer writes = some w)
    (hleft : ¬(0 < w.ret ∧ w.buffer.readableBytes = 0)) :
    handleWrite k s writes = .ok (wrote s w) := by
  rw [handleWrite, if_pos hwriting, hw]
  exact if_neg hleft

/-- A drain that leaves nothing and whose helper returns a count does what is left to do. -/
theorem handleWrite_of_empty {w : Written} (h : Live s)
    (hwriting : s.conn.channel.isWriting k = true)
    (hw : writeOutput k s.conn.outputBuffer writes = some w) (hwf : w.buffer.WF)
    (hpos : 0 < w.ret) (hempty : w.buffer.readableBytes = 0) :
    ∃ s₁ s', handleWrite k s writes = .ok s' ∧ Called k (wrote s w) .disableWriting s₁ ∧
      s' = (if s.conn.state = .kDisconnecting
        then shutdownInLoop k (noteWriteComplete s₁) else noteWriteComplete s₁) := by
  obtain ⟨s', s₁, hs', -, hcalled, heq⟩ := writeComplete_spec (k := k) (wrote_live h hwf)
  refine ⟨s₁, s', ?_, hcalled, heq⟩
  rw [handleWrite, if_pos hwriting, hw, ← hs']
  exact if_pos ⟨hpos, hempty⟩

/-! ## When a drain completes -/

/-- What is to be done when the output buffer has become empty. -/
structure Completed (k : Masks) (s s' : Session) : Prop where
  idle : s'.conn.channel.isWriting k = false
  unwatched : ∀ event ∈ s'.poller.interest s'.conn.channel.fd, has event.1 EPOLLOUT = false
  told : s'.pendingFunctors = s.pendingFunctors ++
    (if s.conn.writeCompleteCallback then [.writeCompleteCallback] else [])
  shut : s.conn.state = .kDisconnecting → .shutdownWrite ∈ s'.log.drop s.log.length

/-- The helper returns what it moved, and the connection is done with an output buffer that it
leaves empty. -/
structure DrainSound (k : Masks) (s : Session) (writes : ℕ → WriteResult) : Prop where
  counts : ∃ w, writeOutput k s.conn.outputBuffer writes = some w ∧
    (w.taken ≠ [] → w.savedErrno = none ∨ w.savedErrno = some .EAGAIN → w.ret = w.taken.length)
  completes : ∃ s', handleWrite k s writes = .ok s' ∧
    (s'.conn.outputBuffer.readableBytes = 0 → Completed k s s')

/-- The kernel takes less than `n` bytes, and the write at which it stops fails, unless it is the
first. -/
def StopsShort (writes : ℕ → WriteResult) (n : ℕ) : Prop :=
  ∃ j, Stops writes n j ∧ (j = 0 ∨ writes j ≠ .accepts 0)

theorem completed_of_called {s₁ : Session} {w : Written}
    (hcalled : Called (Masks.initDefaultEvent m) (wrote s w) .disableWriting s₁)
    (heq : s' = (if s.conn.state = .kDisconnecting
      then shutdownInLoop (Masks.initDefaultEvent m) (noteWriteComplete s₁)
      else noteWriteComplete s₁)) : Completed (Masks.initDefaultEvent m) s s' := by
  have hidle : s₁.conn.channel.isWriting (Masks.initDefaultEvent m) = false :=
    hcalled.isWriting_disableWriting
  have hlog : s₁.log = s.log ++ [.accepted w.taken] := hcalled.log_eq
  have hpending : (noteWriteComplete s₁).pendingFunctors = s.pendingFunctors ++
      (if s.conn.writeCompleteCallback then [.writeCompleteCallback] else []) := by
    rw [noteWriteComplete_pendingFunctors, hcalled.same]
    rfl
  have hshut : shutdownInLoop (Masks.initDefaultEvent m) (noteWriteComplete s₁) =
      (noteWriteComplete s₁).record .shutdownWrite := by
    rw [shutdownInLoop, noteWriteComplete_conn, hidle]
    rfl
  have hpoller : (noteWriteComplete s₁).poller = s₁.poller := by
    rw [noteWriteComplete]
    split <;> rfl
  -- the poller watches what the channel is interested in
  have hunwatched : ∀ event ∈ s₁.poller.interest s₁.conn.channel.fd,
      has event.1 EPOLLOUT = false := by
    intro event hevent
    rw [hcalled.watched_for event hevent, has]
    rw [Channel.isWriting] at hidle
    have hzero := bne_eq_false_iff_eq.mp hidle
    have hsub : EPOLLOUT = (Masks.initDefaultEvent m).kWriteEvent &&& EPOLLOUT := by
      cases m <;> decide
    rw [bne_eq_false_iff_eq, hsub, ← BitVec.and_assoc, hzero]
    exact BitVec.zero_and
  subst heq
  split
  · rename_i hstate
    rw [hshut]
    refine ⟨?_, ?_, hpending, fun _ ↦ ?_⟩
    · change (noteWriteComplete s₁).conn.channel.isWriting _ = false
      rw [noteWriteComplete_conn, hidle]
    · change ∀ event ∈ (noteWriteComplete s₁).poller.interest
        (noteWriteComplete s₁).conn.channel.fd, _
      rw [hpoller, noteWriteComplete_conn]
      exact hunwatched
    · change _ ∈ ((noteWriteComplete s₁).log ++ [Effect.shutdownWrite]).drop s.log.length
      rw [noteWriteComplete_log, hlog, List.append_assoc, List.drop_left]
      exact List.mem_append_right _ (List.mem_singleton_self _)
  · rename_i hstate
    refine ⟨?_, ?_, hpending, fun hs ↦ absurd hs hstate⟩
    · rw [noteWriteComplete_conn, hidle]
    · rw [hpoller, noteWriteComplete_conn]
      exact hunwatched

/-- A drain whose helper returns a count whenever it leaves nothing completes. -/
theorem completes_of_ret_pos {w : Written} (h : Live s) (hne : s.conn.outputBuffer.readable ≠ [])
    (hw : writeOutput (Masks.initDefaultEvent m) s.conn.outputBuffer writes = some w)
    (hwf : w.buffer.WF) (hret : w.buffer.readableBytes = 0 → 0 < w.ret) :
    ∃ s', handleWrite (Masks.initDefaultEvent m) s writes = .ok s' ∧
      (s'.conn.outputBuffer.readableBytes = 0 → Completed (Masks.initDefaultEvent m) s s') := by
  cases hwriting : s.conn.channel.isWriting (Masks.initDefaultEvent m) with
  | false =>
    refine ⟨s, handleWrite_of_not_writing hwriting, fun hzero ↦ ?_⟩
    exact absurd (h.output.readableBytes_eq_zero_iff.mp hzero) hne
  | true =>
    by_cases hdone : 0 < w.ret ∧ w.buffer.readableBytes = 0
    · obtain ⟨s₁, s', hs', hcalled, heq⟩ := handleWrite_of_empty h hwriting hw hwf hdone.1 hdone.2
      exact ⟨s', hs', fun _ ↦ completed_of_called hcalled heq⟩
    · refine ⟨_, handleWrite_of_left hwriting hw hdone, fun hzero ↦ ?_⟩
      exact absurd ⟨hret hzero, hzero⟩ hdone

/-- One write that leaves nothing of something returns a count. -/
theorem writeFd_ret_pos {b : Buffer} {answer : WriteResult} {saved : Option Errno} (h : b.WF)
    (hne : b.readable ≠ []) (hzero : (b.writeFd answer saved).buffer.readableBytes = 0) :
    0 < (b.writeFd answer saved).ret := by
  obtain ⟨hwf, hread, -, -⟩ := writeFd_spec h answer saved
  rw [hwf.readableBytes_eq_zero_iff.mp hzero] at hread
  have hlen : 0 < b.readable.length := List.length_pos_iff.mpr hne
  cases answer with
  | accepts count =>
    have hle : b.readable.length ≤ count := List.drop_eq_nil_iff.mp hread.symm
    change (0 : ℤ) < (b.readable.take count).length
    rw [List.take_of_length_le hle]
    omega
  | fails e =>
    rw [WriteResult.count, List.drop_zero] at hread
    exact absurd hread.symm hne

/-- The level-triggered helper always does. -/
theorem drainSound_LT (h : Live s) (hne : s.conn.outputBuffer.readable ≠ []) :
    DrainSound (Masks.initDefaultEvent .LT) s writes := by
  obtain ⟨hwf, hread, htaken, hret⟩ := writeFd_spec h.output (writes 0) none
  refine ⟨⟨_, rfl, fun hne' _ ↦ ?_⟩, completes_of_ret_pos h hne rfl hwf fun hzero ↦ ?_⟩
  · cases hanswer : writes 0 with
    | accepts count =>
      rw [hanswer] at hret htaken
      rw [hret, htaken]
      rfl
    | fails e =>
      rw [hanswer] at hne'
      exact absurd rfl hne'
  · exact writeFd_ret_pos h.output hne hzero

/-- The edge-triggered helper does if the kernel stops short. -/
theorem drainSound_of_stopsShort (h : Live s) (hne : s.conn.outputBuffer.readable ≠ [])
    (hstops : StopsShort writes s.conn.outputBuffer.readable.length) :
    DrainSound (Masks.initDefaultEvent .ET) s writes := by
  obtain ⟨j, hj, hstop⟩ := hstops
  have hlt := hj.total_lt
  obtain ⟨w, hw, hwf, hread, htaken, hend⟩ := writeFdETLoop_of_stops h.output 0 [] hj
    (Nat.lt_succ_of_le hj.index_le) (show (none : Option Errno) ≠ some .EAGAIN from nofun)
  have hw' : writeOutput (Masks.initDefaultEvent .ET) s.conn.outputBuffer writes = some w := by
    rw [h.output.length_readable] at hw
    exact hw
  have hleft : w.buffer.readableBytes ≠ 0 := by
    rw [← hwf.length_readable, hread, List.length_drop]
    omega
  have hlen : w.taken.length = total writes j := by
    rw [htaken, List.nil_append, List.length_take_of_le (Nat.le_of_lt hlt)]
  refine ⟨⟨w, hw', fun hmoved hno ↦ ?_⟩,
    completes_of_ret_pos h hne hw' hwf fun hzero ↦ absurd hzero hleft⟩
  rcases hend with ⟨-, hret⟩ | ⟨e, -, he, -, hsaved⟩ | ⟨hzero, hret, -⟩
  · rw [hret, hlen]
    exact Int.zero_add _
  · rw [hsaved] at hno
    rcases hno with hno | hno
    · exact absurd hno (Option.some_ne_none e)
    · exact absurd (Option.some_inj.mp hno) he
  · -- only a first write may take nothing without an error
    obtain rfl := hstop.resolve_right (not_not.mpr hzero)
    exact absurd (List.length_eq_zero_iff.mp hlen) hmoved

/-- The edge-triggered helper counts what it moved only if the kernel stops short. -/
theorem stopsShort_of_drainSound (h : Live s) (hne : s.conn.outputBuffer.readable ≠ [])
    (hempty : ∀ j, TakesAll writes s.conn.outputBuffer.readable.length j →
      ∃ count, writes j = .accepts count)
    (hsound : DrainSound (Masks.initDefaultEvent .ET) s writes) :
    StopsShort writes s.conn.outputBuffer.readable.length := by
  obtain ⟨⟨w, hw, hcounts⟩, -⟩ := hsound
  have hw' : s.conn.outputBuffer.writeFdET writes none = some w := hw
  rw [writeFdET, ← h.output.length_readable] at hw'
  rcases stops_or_takesAll writes s.conn.outputBuffer.readable.length with ⟨j, hj⟩ | ⟨j, hj⟩
  · refine ⟨j, hj, ?_⟩
    by_contra hbad
    obtain ⟨hj0, hzero⟩ := not_or.mp hbad
    rw [ne_eq, not_not] at hzero
    have hlt := hj.total_lt
    have hpos : 0 < total writes j :=
      Nat.lt_of_lt_of_le (Nat.pos_of_ne_zero hj0) (length_le_total hj.pos)
    obtain ⟨w', hloop, -, -, htaken, hend⟩ := writeFdETLoop_of_stops h.output 0 [] hj
      (Nat.lt_succ_of_le hj.index_le) (show (none : Option Errno) ≠ some .EAGAIN from nofun)
    obtain rfl := Option.some_inj.mp (hw'.symm.trans hloop)
    have hlen : w.taken.length = total writes j := by
      rw [htaken, List.nil_append, List.length_take_of_le (Nat.le_of_lt hlt)]
    -- a later write that takes nothing has the helper return zero
    have hret : w.ret = 0 ∧ w.savedErrno = none := by
      rcases hend with ⟨heq, -⟩ | ⟨e, heq, -⟩ | ⟨-, hret⟩
      · exact absurd (heq.symm.trans hzero) nofun
      · exact absurd (heq.symm.trans hzero) nofun
      · exact hret
    have hcount := hcounts (List.length_pos_iff.mp (by omega)) (Or.inl hret.2)
    omega
  · -- the last write is empty and returns zero
    exfalso
    obtain ⟨count, hlast⟩ := hempty j hj
    have hnone : (none : Option Errno) ≠ some .EAGAIN := nofun
    obtain ⟨w', hloop, -, -, htaken, hret, hsaved⟩ := writeFdETLoop_of_takesAll h.output 0 []
      hj hlast (Nat.lt_succ_of_le hj.index_le) hnone
    obtain rfl := Option.some_inj.mp (hw'.symm.trans hloop)
    rw [List.nil_append] at htaken
    have hcount := hcounts (htaken ▸ hne) (Or.inl hsaved)
    have hlen : 0 < w.taken.length := List.length_pos_iff.mpr (htaken ▸ hne)
    omega

/-- **Drain completion.** A drain of a non-empty output buffer, by a kernel that answers an empty
write with zero, is sound in level-triggered mode, and in edge-triggered mode exactly when the
kernel stops short of the content. -/
theorem drainSound_iff (h : Live s) (hne : s.conn.outputBuffer.readable ≠ [])
    (hempty : ∀ j, TakesAll writes s.conn.outputBuffer.readable.length j →
      ∃ count, writes j = .accepts count) :
    DrainSound (Masks.initDefaultEvent m) s writes ↔
      m = .LT ∨ StopsShort writes s.conn.outputBuffer.readable.length := by
  cases m with
  | LT => exact ⟨fun _ ↦ Or.inl rfl, fun _ ↦ drainSound_LT h hne⟩
  | ET =>
    constructor
    · intro hsound
      exact Or.inr (stopsShort_of_drainSound h hne hempty hsound)
    · intro hcond
      exact drainSound_of_stopsShort h hne (hcond.resolve_left nofun)

/-- A connection with three bytes to write. -/
def waiting : Session where
  conn := ⟨.kDisconnecting, true, ⟨0, 5, EPOLLET ||| EPOLLIN ||| EPOLLPRI ||| EPOLLOUT, 0, kAdded⟩,
    true, false, 0, ⟨[], 0, 0⟩, ⟨[1, 2, 3], 0, 3⟩⟩
  poller := ⟨fun _ ↦ some 0, fun _ ↦ some (EPOLLET ||| EPOLLIN ||| EPOLLPRI ||| EPOLLOUT, 0), []⟩
  pendingFunctors := []
  log := []
  calls := []
  queueing := []

theorem waiting_live : Live waiting :=
  ⟨⟨⟨le_rfl, le_rfl⟩, Nat.zero_le _⟩, ⟨⟨by decide, by decide⟩, by decide⟩,
    .added, EpollPoller.Standing.noConfusion, rfl, rfl, rfl⟩

/-- Two bytes are taken, and the third has to wait. -/
theorem drainSound_of_partial : DrainSound (Masks.initDefaultEvent .ET) waiting
    (fun i ↦ if i = 0 then .accepts 2 else .fails .EAGAIN) := by
  refine (drainSound_iff waiting_live (by decide) fun j hj ↦ ?_).mpr
    (Or.inr ⟨1, ⟨by decide, by decide, rfl⟩, Or.inr (by decide)⟩)
  match j, hj with
  | 0, hj | 1, hj => exact absurd hj.le_total (by decide)
  | j + 2, hj => exact absurd (hj.pos 1 (by omega)) (by decide)

/-- All three bytes are taken, the helper returns zero, and the connection goes on waiting for its
socket to be writable: no callback is queued and the socket is not shut down. -/
theorem not_drainSound_of_takesAll :
    Live waiting ∧ waiting.conn.outputBuffer.readable ≠ [] ∧
      ¬DrainSound (Masks.initDefaultEvent .ET) waiting (fun _ ↦ .accepts 3) := by
  refine ⟨waiting_live, by decide, fun h ↦ ?_⟩
  obtain ⟨w, hw, hcounts⟩ := h.counts
  obtain rfl := Option.some_inj.mp hw
  exact absurd (hcounts (by decide) (Or.inl rfl)) (by decide)

end TcpConnection

end Twnl
