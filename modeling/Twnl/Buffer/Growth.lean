import Mathlib.Data.List.Basic
import Twnl.Buffer.Drain
import Twnl.Buffer.Spill

/-!
# How far the storage grows

The storage of a buffer grows by `makeSpace` alone, and then to `writerIndex_ + len`: the bytes in
front of the reader, which were taken out long ago, are carried along with the readable ones.

## What keeps it in proportion

`retrieve` sets both indices back when it empties the buffer, but `writeFd` only moves the reader,
and the test of `makeSpace` does not count what lies in front of it. So the storage stays within
twice the content exactly as long as no append that grows it finds more dead bytes there than the
bound leaves room for (`bounded_iff_reclaims`); a reader that is no further from the front than the
content may be long leaves that room (`bounded_of_deadWithin`). A buffer that is filled and drained by `writeFd`
over and over has both indices where its writer left them, and grows in every cycle past the first
few (`run_cycles`).
-/

namespace Twnl

namespace Buffer

open Machine

/-- The calls made on an output buffer. -/
inductive OutputUse
  | append (data : List Byte)
  | retrieve (len : ℕ)
  | writeFd (answer : WriteResult)

/-- One call. The buffer is left the same whatever `errno` was saved before. -/
def useOutput (b : Buffer) : OutputUse → Except Fault Buffer
  | .append data => b.append data
  | .retrieve len => b.retrieve len
  | .writeFd answer => .ok (b.writeFd answer none).buffer

/-- The content is at most `M` bytes after each append. -/
def Within (M : ℕ) (b : Buffer) : OutputUse → Prop
  | .append data => b.readableBytes + data.length ≤ M
  | .retrieve _ | .writeFd _ => True

instance (M : ℕ) (b : Buffer) : DecidablePred (Within M b)
  | .append _ => Nat.decLe _ _
  | .retrieve _ | .writeFd _ => .isTrue trivial

/-- The storage is at most `bound` bytes after the call. -/
def Bounded (bound : ℕ) (b : Buffer) (u : OutputUse) : Prop :=
  Outcome (b.useOutput u) (fun b' ↦ b'.size ≤ bound) (fun _ ↦ True)

instance (bound : ℕ) (b : Buffer) : DecidablePred (Bounded bound b) :=
  fun _ ↦ Outcome.decidable _ _ _

/-- A request is larger than the free tail and the readable bytes together, and the vector goes
along with what `makeSpace` then asks of it. -/
def Grows (b : Buffer) (len : ℕ) : Prop :=
  b.writableBytes + b.readableBytes < len ∧ b.writerIndex + len ≤ maxSize

instance (b : Buffer) (len : ℕ) : Decidable (b.Grows len) := inferInstanceAs (Decidable (_ ∧ _))

/-- The dead bytes an append that grows the storage finds in front of the reader fit in what the
bound leaves beside the content. -/
def Reclaims (bound : ℕ) (b : Buffer) : OutputUse → Prop
  | .append data =>
    b.Grows data.length → b.readerIndex ≤ bound - (b.readableBytes + data.length)
  | .retrieve _ | .writeFd _ => True

instance (bound : ℕ) (b : Buffer) : DecidablePred (Reclaims bound b)
  | .append data =>
    inferInstanceAs (Decidable (b.Grows data.length → b.readerIndex ≤ _))
  | .retrieve _ | .writeFd _ => .isTrue trivial

/-- An append that grows the storage finds no more dead bytes than the content may have. -/
def DeadWithin (M : ℕ) (b : Buffer) : OutputUse → Prop
  | .append data => b.Grows data.length → b.readerIndex ≤ M
  | .retrieve _ | .writeFd _ => True

variable {b b' : Buffer} {data : List Byte} {len bound : ℕ} {u : OutputUse}

/-! ## Sizes -/

theorem size_of_retrieve (h : b.retrieve len = .ok b') : b'.size = b.size := by
  obtain ⟨_, -, h⟩ := bind_eq_ok.mp h
  split at h
  · rw [← Except.ok.inj h]
    rfl
  · rw [← Except.ok.inj h]
    rfl

theorem size_of_writeFd (answer : WriteResult) (saved : Option Errno) :
    (b.writeFd answer saved).buffer.size = b.size := by
  cases answer with
  | accepts count => rfl
  | fails e => rfl

theorem size_of_copyIn (h : b.copyIn data = .ok b') : b'.size = b.size := by
  rw [copyIn] at h
  split at h
  · exact absurd h error_ne_ok
  · rename_i hfit
    rw [← Except.ok.inj h]
    change (b.buffer.writeAt b.writerIndex data).length = b.buffer.length
    by_cases hdata : data = []
    · subst hdata
      simp [List.writeAt]
    · have hle : ¬b.size < b.writerIndex + data.length := fun hlt ↦ hfit ⟨hdata, hlt⟩
      exact List.length_writeAt (Nat.not_lt.mp hle)

/-- Room is made by growing to the end of what is to be written, or without growing. -/
theorem size_of_ensureWriteBytes (h : b.WF) (hs : b.Servable len)
    (hens : b.ensureWriteBytes len = .ok b') :
    b'.size = if b.Grows len then b.writerIndex + len else b.size := by
  rw [ensureWriteBytes] at hens
  obtain ⟨roomy, hroomy, hens⟩ := bind_eq_ok.mp hens
  obtain ⟨_, -, hens⟩ := bind_eq_ok.mp hens
  obtain rfl := Except.ok.inj hens
  split at hroomy
  · rw [makeSpace, h.sizeAdd_lengths, sizeAdd_eq hs.2] at hroomy
    split at hroomy
    · rename_i hlt
      obtain ⟨storage, hstorage, hroomy⟩ := bind_eq_ok.mp hroomy
      obtain ⟨hlen, hmax⟩ := length_of_resize hstorage
      rw [← Except.ok.inj hroomy, if_pos ⟨hlt, hmax⟩]
      exact hlen
    · rename_i hge
      obtain ⟨_, -, hroomy⟩ := bind_eq_ok.mp hroomy
      have hfit : 0 + b.readable.length ≤ b.buffer.length := by
        have hw := h.writer_le
        rw [h.length_readable, h.readableBytes_eq]
        change _ ≤ b.size
        omega
      rw [← Except.ok.inj hroomy, if_neg fun hg ↦ hge hg.1]
      exact List.length_writeAt hfit
  · rename_i hroom
    obtain rfl := Except.ok.inj hroomy
    rw [if_neg fun hg ↦ hroom (Nat.lt_of_le_of_lt (Nat.le_add_right _ _) hg.1)]

theorem size_of_append (h : b.WF) (happ : b.append data = .ok b') :
    b'.size = if b.Grows data.length then b.writerIndex + data.length else b.size := by
  have hs := servable_of_append_ok h happ
  rw [append] at happ
  obtain ⟨roomy, hroomy, happ⟩ := bind_eq_ok.mp happ
  obtain ⟨filled, hfilled, happ⟩ := bind_eq_ok.mp happ
  obtain ⟨_, -, happ⟩ := bind_eq_ok.mp happ
  rw [← size_of_ensureWriteBytes h hs hroomy, ← size_of_copyIn hfilled, ← Except.ok.inj happ]
  rfl

/-- An append that grows the storage returns. -/
theorem append_of_grows (h : b.WF) (hg : b.Grows data.length) : ∃ b', b.append data = .ok b' := by
  have hmax := maxSize_add_maxSize_lt
  have hsum := hg.1
  have hfits := hg.2
  exact (append_returns_iff h data (by omega) (by omega)).mpr (Or.inl hg)

/-! ## One call -/

theorem useOutput_wf (h : b.WF) (hu : b.useOutput u = .ok b') : b'.WF := by
  cases u with
  | append data => exact (append_ok h hu).1
  | retrieve len =>
    rw [useOutput] at hu
    by_cases hlen : len ≤ b.readableBytes
    · obtain ⟨c, hc, hwf, -⟩ := retrieve_spec h hlen
      rw [hc, Except.ok.injEq] at hu
      exact hu ▸ hwf
    · rw [retrieve, check_neg hlen] at hu
      exact absurd hu error_ne_ok
  | writeFd answer =>
    rw [useOutput, Except.ok.injEq] at hu
    exact hu ▸ (writeFd_spec h answer none).1

/-- From a storage within the bound, a call that keeps the content small leaves the storage within
it exactly when it reclaims the dead bytes. -/
theorem bounded_iff_reclaims_step {M : ℕ} (h : b.WF) (hsize : b.size ≤ bound) (hM : M ≤ bound)
    (hu : Within M b u) : Bounded bound b u ↔ Reclaims bound b u := by
  cases u with
  | append data =>
    have hle : b.readableBytes + data.length ≤ M := hu
    have hr := h.reader_le
    have hrb := h.readableBytes_eq
    by_cases hg : b.Grows data.length
    · obtain ⟨b', hb'⟩ := append_of_grows h hg
      have hb'size := size_of_append h hb'
      rw [if_pos hg] at hb'size
      rw [Bounded, useOutput, hb', outcome_ok, hb'size, Reclaims]
      constructor
      · intro hbound _
        omega
      · intro hreclaims
        have hdead := hreclaims hg
        omega
    · refine iff_of_true (outcome_of (fun b' hb' ↦ ?_) fun _ _ ↦ trivial) fun hg' ↦ absurd hg' hg
      have hb'size := size_of_append h hb'
      rw [if_neg hg] at hb'size
      exact hb'size.trans_le hsize
  | retrieve len =>
    refine iff_of_true (outcome_of (fun b' hb' ↦ ?_) fun _ _ ↦ trivial) trivial
    exact (size_of_retrieve hb').trans_le hsize
  | writeFd answer => exact iff_of_true ((size_of_writeFd answer none).trans_le hsize) trivial

/-! ## Whole runs -/

/-- **Proportion.** For every initial size and every `M`, the storage stays within the initial size
and twice `M` in a run whose content stays within `M` exactly when no append that grows it finds
more dead bytes in front of the reader than that leaves room for. -/
theorem bounded_iff_reclaims {init M : ℕ} (hnew : new init = .ok b) {us : List OutputUse}
    (hM : Along useOutput (Within M) b us) :
    Along useOutput (Bounded (max init (2 * M))) b us ↔
      Along useOutput (Reclaims (max init (2 * M))) b us := by
  have hbound : M ≤ max init (2 * M) := le_max_of_le_right (by omega)
  obtain ⟨hwf, -, hsize⟩ := new_spec hnew
  -- what a step that is bounded leaves is well formed and bounded again
  have key : Along useOutput (Reclaims (max init (2 * M))) b us ↔
      Along useOutput (Bounded (max init (2 * M))) b us := by
    refine along_congr_of (I := fun b ↦ b.WF ∧ b.size ≤ max init (2 * M))
      (fun b u b' hb _ hu hb' ↦ ?_) (fun b u hb hu ↦ ?_) ⟨hwf, hsize.trans_le (le_max_left _ _)⟩ hM
    · exact ⟨useOutput_wf hb.1 hb', hu.of_ok hb'⟩
    · exact (bounded_iff_reclaims_step hb.1 hb.2 hbound hu).symm
  exact key.symm

/-- Eight bytes in a buffer of eight, seven of them written, and seven more: the storage grows to
fifteen. -/
theorem bounded_of_growing :
    Along useOutput (Bounded (max 8 (2 * 8))) ⟨List.replicate 8 0, 0, 0⟩
      [.append [1, 2, 3, 4, 5, 6, 7, 8], .writeFd (.accepts 7), .append [1, 2, 3, 4, 5, 6, 7]] :=
  (bounded_iff_reclaims (M := 8) (show new 8 = .ok ⟨List.replicate 8 0, 0, 0⟩ from rfl)
    (by decide)).mpr (by decide)

/-- Twice the content is room for the content and for as many dead bytes again. -/
theorem reclaims_of_deadWithin {M : ℕ} (hbound : 2 * M ≤ bound) (hu : Within M b u)
    (hdead : DeadWithin M b u) : Reclaims bound b u := by
  cases u with
  | append data =>
    intro hg
    have hcontent : b.readableBytes + data.length ≤ M := hu
    have hreader := hdead hg
    omega
  | retrieve _ | writeFd _ => trivial

/-- A run keeps its storage in proportion when each append that grows it finds the reader within
`M` of the front. -/
theorem bounded_of_deadWithin {init M : ℕ} (hnew : new init = .ok b) {us : List OutputUse}
    (hus : Along useOutput (fun b u ↦ Within M b u ∧ DeadWithin M b u) b us) :
    Along useOutput (Bounded (max init (2 * M))) b us := by
  obtain ⟨hwf, -, hsize⟩ := new_spec hnew
  have hbound : 2 * M ≤ max init (2 * M) := le_max_right _ _
  have hstep : ∀ b u, (b.WF ∧ b.size ≤ max init (2 * M)) → Within M b u ∧ DeadWithin M b u →
      Bounded (max init (2 * M)) b u := by
    intro b u hb hu
    have hreclaims := reclaims_of_deadWithin hbound hu.1 hu.2
    exact (bounded_iff_reclaims_step hb.1 hb.2 (by omega) hu.1).mpr hreclaims
  refine hus.guarantee (fun b u b' hb hu hb' ↦ ?_) hstep ⟨hwf, hsize.trans_le (le_max_left _ _)⟩
  exact ⟨useOutput_wf hb.1 hb', (hstep b u hb hu).of_ok hb'⟩

/-- Three cycles of eight bytes in and eight bytes out leave a buffer of eight with a storage of
twenty-four. -/
theorem not_bounded_of_draining :
    new 8 = .ok ⟨List.replicate 8 0, 0, 0⟩ ∧
      Along useOutput (Within 8) ⟨List.replicate 8 0, 0, 0⟩
        (List.replicate 3 [.append [1, 2, 3, 4, 5, 6, 7, 8], .writeFd (.accepts 8)]).flatten ∧
      ¬Along useOutput (Bounded (max 8 (2 * 8))) ⟨List.replicate 8 0, 0, 0⟩
        (List.replicate 3 [.append [1, 2, 3, 4, 5, 6, 7, 8], .writeFd (.accepts 8)]).flatten :=
  ⟨rfl, by decide, by decide⟩

/-! ## Cycles -/

/-- Nothing is readable, and both indices stand at `k`. -/
structure Drained (b : Buffer) (k : ℕ) : Prop extends b.WF where
  reader_eq : b.readerIndex = k
  writer_eq : b.writerIndex = k

/-- Filling and draining once. -/
def cycle (data : List Byte) : List OutputUse := [.append data, .writeFd (.accepts data.length)]

theorem Drained.readableBytes_eq_zero {k : ℕ} (h : b.Drained k) : b.readableBytes = 0 := by
  rw [h.toWF.readableBytes_eq, h.reader_eq, h.writer_eq, Nat.sub_self]

/-- Room behind a drained reader is free or new storage, never what lies before it. -/
theorem Drained.ensureWriteBytes {k : ℕ} (h : b.Drained k) (hfit : k + len ≤ maxSize) :
    ∃ storage, b.ensureWriteBytes len = .ok { b with buffer := storage } ∧
      storage.length = max b.size (k + len) := by
  have hw := h.writer_le
  have hwb := h.toWF.writableBytes_eq
  have hmax := maxSize_add_maxSize_lt
  rw [h.writer_eq] at hw hwb
  by_cases hlt : b.writableBytes < len
  · have hadd : sizeAdd b.writerIndex len = k + len := by
      rw [h.writer_eq]
      exact sizeAdd_eq (by omega)
    have hgrow : b.buffer.length ≤ k + len := by
      change b.size ≤ _
      omega
    obtain ⟨storage, hstorage⟩ :
        ∃ storage, resize b.buffer (k + len) = .ok storage := ⟨_, resize_grow hfit hgrow⟩
    obtain ⟨hlen, -⟩ := length_of_resize hstorage
    have hroom : len ≤ ({ b with buffer := storage } : Buffer).writableBytes := by
      have hsub : ({ b with buffer := storage } : Buffer).writableBytes = len := by
        rw [writableBytes, size, hlen, h.writer_eq, sizeSub_eq (by omega) (by omega)]
        omega
      exact Nat.le_of_eq hsub.symm
    refine ⟨storage, ?_, ?_⟩
    · rw [Buffer.ensureWriteBytes, if_pos hlt, makeSpace, h.toWF.sizeAdd_lengths,
        h.readableBytes_eq_zero, Nat.add_zero, if_pos hlt, hadd, hstorage, bind_ok, bind_ok,
        check_pos hroom, bind_ok]
    · rw [hlen]
      exact (max_eq_right hgrow).symm
  · have hle : k + len ≤ b.size := by omega
    refine ⟨b.buffer, ?_, (max_eq_left hle).symm⟩
    rw [Buffer.ensureWriteBytes, if_neg hlt, bind_ok, check_pos (Nat.not_lt.mp hlt), bind_ok]

/-- One cycle moves the place where both indices stand. -/
theorem Drained.run_cycle {k : ℕ} (h : b.Drained k) (hfit : k + data.length ≤ maxSize) :
    ∃ b', run useOutput b (cycle data) = .ok b' ∧ b'.Drained (k + data.length) ∧
      b'.size = max b.size (k + data.length) := by
  obtain ⟨storage, hens, hlen⟩ := h.ensureWriteBytes hfit
  set roomy : Buffer := { b with buffer := storage } with hroomy
  have hsize : roomy.size = max b.size (k + data.length) := hlen
  have hwf : roomy.WF := by
    refine ⟨⟨h.reader_le, ?_⟩, ?_⟩
    · rw [hsize]
      exact h.writer_le.trans (le_max_left _ _)
    · rw [hsize]
      exact max_le h.size_le hfit
  have hroom : data.length ≤ roomy.writableBytes := by
    rw [hwf.writableBytes_eq, hsize]
    change _ ≤ _ - b.writerIndex
    rw [h.writer_eq]
    omega
  obtain ⟨hcopy, hfull, hread, hfulllen⟩ := copyIn_ok_of_le hwf hroom
  obtain ⟨filled, hfilled, hwritten, -⟩ := copyIn_hasWritten hwf hroom
  obtain rfl := Except.ok.inj (hcopy.symm.trans hfilled)
  have happ : b.append data = .ok ⟨roomy.buffer.writeAt roomy.writerIndex data, roomy.readerIndex,
      roomy.writerIndex + data.length⟩ := by
    rw [append, hens, bind_ok, hfilled, bind_ok, hwritten]
  set full : Buffer := ⟨roomy.buffer.writeAt roomy.writerIndex data, roomy.readerIndex,
    roomy.writerIndex + data.length⟩ with hfulldef
  have hnil : roomy.readable = [] := by
    change storage.window b.readerIndex b.writerIndex = []
    rw [h.reader_eq, h.writer_eq, List.window_self]
  rw [hnil, List.nil_append] at hread
  -- the write takes all of `data` and moves the reader to the writer
  have hmove : (full.writeFd (.accepts data.length) none).buffer.readerIndex = k + data.length := by
    have hmax := maxSize_add_maxSize_lt
    change sizeAdd b.readerIndex (full.readable.take data.length).length = _
    rw [hread, List.take_length, h.reader_eq, sizeAdd_eq (by omega)]
  refine ⟨(full.writeFd (.accepts data.length) none).buffer, ?_, ⟨?_, hmove, ?_⟩, ?_⟩
  · rw [cycle, run_cons_eq_ok]
    exact ⟨full, happ, rfl⟩
  · exact (writeFd_spec hfull _ none).1
  · change b.writerIndex + data.length = _
    rw [h.writer_eq]
  · exact hfulllen.trans hsize

/-- Cycles from a drained buffer. -/
theorem Drained.run_cycles {k n : ℕ} (h : b.Drained k) (hfit : k + n * data.length ≤ maxSize) :
    ∃ b', run useOutput b (List.replicate n (cycle data)).flatten = .ok b' ∧
      b'.Drained (k + n * data.length) ∧ b'.size = max b.size (k + n * data.length) := by
  induction n generalizing b k with
  | zero =>
    have hw := h.writer_le
    rw [h.writer_eq] at hw
    refine ⟨b, rfl, ?_, ?_⟩
    · rw [Nat.zero_mul]
      exact h
    · rw [Nat.zero_mul]
      exact (max_eq_left hw).symm
  | succ n ih =>
    rw [Nat.succ_mul] at hfit ⊢
    obtain ⟨c, hc, hdrained, hcsize⟩ : ∃ c, run useOutput b (cycle data) = .ok c ∧
        c.Drained (k + data.length) ∧ c.size = max b.size (k + data.length) :=
      h.run_cycle (by omega)
    obtain ⟨b', hb', hdrained', hb'size⟩ := ih hdrained (by omega)
    have hsum : k + data.length + n * data.length = k + (n * data.length + data.length) := by
      omega
    rw [hsum] at hdrained' hb'size
    refine ⟨b', ?_, hdrained', ?_⟩
    · rw [List.replicate_succ, List.flatten_cons, run_append_eq_ok]
      exact ⟨c, hc, hb'⟩
    · rw [hb'size, hcsize]
      omega

/-- **No reuse.** A new buffer that is filled with `data` and drained by `writeFd` `n` times is
empty, and its storage has all `n` copies of `data` behind each other. -/
theorem run_cycles {init n : ℕ} (hnew : new init = .ok b) (hfit : n * data.length ≤ maxSize) :
    ∃ b', run useOutput b (List.replicate n (cycle data)).flatten = .ok b' ∧ b'.readable = [] ∧
      b'.size = max init (n * data.length) := by
  obtain ⟨hwf, -, hsize⟩ := new_spec hnew
  obtain ⟨storage, -, hb⟩ := bind_eq_ok.mp hnew
  have hdrained : b.Drained 0 := by
    refine ⟨hwf, ?_, ?_⟩
    · rw [← Except.ok.inj hb]
    · rw [← Except.ok.inj hb]
  obtain ⟨b', hb', hd, hb'size⟩ := hdrained.run_cycles (k := 0) (by rwa [Nat.zero_add])
  refine ⟨b', hb', ?_, ?_⟩
  · exact hd.readableBytes_eq_zero_iff.mp hd.readableBytes_eq_zero
  · rw [hb'size, hsize, Nat.zero_add]

end Buffer

end Twnl
