import Mathlib.Data.Nat.Basic
import Twnl.Buffer.Basic

/-!
# What the buffer operations do

One statement for each operation of a well-formed buffer, in terms of its readable bytes. Nothing
above this file looks into the indices.

## When a request is served

`makeSpace` compacts when the request is at most the free tail and the readable bytes together,
although compacting frees the bytes *in front* of the reader, not the readable ones. `Servable`
is the condition under which the branch it takes makes room; `ensureWriteBytes_spec` and
`ensureWriteBytes_of_not_servable` are the two halves.
-/

namespace Twnl

namespace Buffer

/-- The indices are in order and inside the storage. -/
structure Ordered (b : Buffer) : Prop where
  reader_le : b.readerIndex ≤ b.writerIndex
  writer_le : b.writerIndex ≤ b.size

instance : DecidablePred Ordered := fun b ↦
  decidable_of_iff (b.readerIndex ≤ b.writerIndex ∧ b.writerIndex ≤ b.size)
    ⟨fun h ↦ ⟨h.1, h.2⟩, fun h ↦ ⟨h.reader_le, h.writer_le⟩⟩

/-- An ordered buffer whose vector has a size vectors can have. -/
structure WF (b : Buffer) : Prop extends Ordered b where
  size_le : b.size ≤ maxSize

variable {b b' : Buffer} {data : List Byte} {len : ℕ}

theorem WF.writerIndex_le (h : b.WF) : b.writerIndex ≤ maxSize :=
  Nat.le_trans h.writer_le h.size_le

theorem WF.readableBytes_eq (h : b.WF) : b.readableBytes = b.writerIndex - b.readerIndex := by
  have hw := h.writerIndex_le
  have hmax := maxSize_add_maxSize_lt
  exact sizeSub_eq h.reader_le (by omega)

theorem WF.writableBytes_eq (h : b.WF) : b.writableBytes = b.size - b.writerIndex := by
  have hs := h.size_le
  have hmax := maxSize_add_maxSize_lt
  exact sizeSub_eq h.writer_le (by omega)

theorem WF.length_readable (h : b.WF) : b.readable.length = b.readableBytes := by
  rw [h.readableBytes_eq, readable, List.length_window h.writer_le]

theorem WF.readableBytes_eq_zero_iff (h : b.WF) : b.readableBytes = 0 ↔ b.readable = [] := by
  rw [← h.length_readable, List.length_eq_zero_iff]

theorem WF.sizeAdd_writerIndex (h : b.WF) (hlen : len ≤ b.writableBytes) :
    sizeAdd b.writerIndex len = b.writerIndex + len := by
  have hs := h.size_le
  have hw := h.writer_le
  have hmax := maxSize_add_maxSize_lt
  rw [h.writableBytes_eq] at hlen
  exact sizeAdd_eq (by omega)

/-! ## Construction and retrieval -/

theorem length_take_append_replicate (storage : List Byte) (n : ℕ) :
    (storage.take n ++ List.replicate (n - storage.length) 0).length = n := by
  rw [List.length_append, List.length_take, List.length_replicate]
  omega

theorem length_of_resize {storage storage' : List Byte} {n : ℕ}
    (h : resize storage n = .ok storage') : storage'.length = n ∧ n ≤ maxSize := by
  rw [resize] at h
  split at h
  · rename_i hn
    rw [Except.ok.injEq] at h
    exact ⟨h ▸ length_take_append_replicate _ _, hn⟩
  · exact absurd h (by simp)

/-- Growing keeps the storage as a prefix. -/
theorem resize_grow {storage : List Byte} {n : ℕ} (hn : n ≤ maxSize) (h : storage.length ≤ n) :
    resize storage n = .ok (storage ++ List.replicate (n - storage.length) 0) := by
  rw [resize, if_pos hn, List.take_of_length_le h]

theorem new_spec {n : ℕ} (h : new n = .ok b) : b.WF ∧ b.readable = [] ∧ b.size = n := by
  obtain ⟨storage, hstorage, hb⟩ := bind_eq_ok.mp h
  rw [Except.ok.injEq] at hb
  subst hb
  obtain ⟨hlen, hmax⟩ := length_of_resize hstorage
  exact ⟨⟨⟨le_rfl, Nat.zero_le _⟩, by rw [size, hlen]; exact hmax⟩, List.window_self _ _, hlen⟩

theorem retrieveAll_wf (h : b.WF) : b.retrieveAll.WF :=
  ⟨⟨le_rfl, Nat.zero_le _⟩, h.size_le⟩

@[simp] theorem readable_retrieveAll (b : Buffer) : b.retrieveAll.readable = [] :=
  List.window_self _ _

theorem retrieve_spec (h : b.WF) (hlen : len ≤ b.readableBytes) :
    ∃ b', b.retrieve len = .ok b' ∧ b'.WF ∧ b'.readable = b.readable.drop len := by
  have hlen' := h.length_readable
  rw [retrieve, check_pos hlen, bind_ok]
  by_cases hlt : len < b.readableBytes
  · rw [if_pos hlt]
    rw [h.readableBytes_eq] at hlt
    have hw := h.writerIndex_le
    have hmax := maxSize_add_maxSize_lt
    have hadd : sizeAdd b.readerIndex len = b.readerIndex + len := sizeAdd_eq (by omega)
    refine ⟨_, rfl, ⟨⟨?_, h.writer_le⟩, h.size_le⟩, ?_⟩
    · change sizeAdd b.readerIndex len ≤ b.writerIndex
      omega
    · change b.buffer.window (sizeAdd b.readerIndex len) b.writerIndex = _
      rw [hadd, List.window_add_left, readable]
  · rw [if_neg hlt]
    refine ⟨_, rfl, retrieveAll_wf h, ?_⟩
    rw [readable_retrieveAll, List.drop_of_length_le (by omega)]

theorem retrieve_error {e : Fault} (h : b.retrieve len = .error e) :
    b.readableBytes < len ∧ e = .assertion .retrieve := by
  rw [retrieve, bind_eq_error] at h
  rcases h with h | ⟨_, _, h⟩
  · rw [check_eq_error] at h
    exact ⟨by omega, h.2⟩
  · split at h <;> exact absurd h (by simp)

theorem retrieveUntil_spec {stop : ℕ} (h : b.WF) (hlo : b.readerIndex ≤ stop)
    (hhi : stop ≤ b.writerIndex) :
    ∃ b', b.retrieveUntil stop = .ok b' ∧ b'.WF ∧
      b'.readable = b.readable.drop (stop - b.readerIndex) := by
  have hw := h.writerIndex_le
  have hmax := maxSize_add_maxSize_lt
  have hsub : sizeSub stop b.readerIndex = stop - b.readerIndex := sizeSub_eq hlo (by omega)
  rw [retrieveUntil, check_pos hlo, bind_ok, check_pos hhi, bind_ok, hsub]
  exact retrieve_spec h (by rw [h.readableBytes_eq]; omega)

/-- The string handed out is the front of the readable bytes. -/
theorem retrieveAsString_spec (h : b.WF) (hlen : len ≤ b.readableBytes) :
    ∃ b', b.retrieveAsString len = .ok (b.readable.take len, b') ∧ b'.WF ∧
      b'.readable = b.readable.drop len := by
  obtain ⟨b', hb', hwf, hread⟩ := retrieve_spec h hlen
  refine ⟨b', ?_, hwf, hread⟩
  rw [h.readableBytes_eq] at hlen
  rw [retrieveAsString, hb', bind_ok, readable, List.window, List.take_take, min_eq_left hlen]

/-! ## Making room -/

/-- The request is one whose branch of `makeSpace` makes room for it: it is larger than the free
tail and the readable bytes together, so that the storage grows, or it fits before the reader and
behind the writer, so that compacting is enough; and `writerIndex_ + len` does not wrap. -/
def Servable (b : Buffer) (len : ℕ) : Prop :=
  (b.writableBytes + b.readableBytes < len ∨ len ≤ b.readerIndex + b.writableBytes) ∧
    b.writerIndex + len < sizeModulus

instance (b : Buffer) (len : ℕ) : Decidable (b.Servable len) :=
  inferInstanceAs (Decidable (_ ∧ _))

theorem WF.sizeAdd_lengths (h : b.WF) :
    sizeAdd b.writableBytes b.readableBytes = b.writableBytes + b.readableBytes := by
  have hs := h.size_le
  have hr := h.reader_le
  have hw := h.writer_le
  have hmax := maxSize_add_maxSize_lt
  refine sizeAdd_eq ?_
  rw [h.writableBytes_eq, h.readableBytes_eq]
  omega

/-- The growing branch, as far as the vector goes along. -/
theorem makeSpace_grow (h : b.WF) (hlen : b.writableBytes + b.readableBytes < len)
    (hfits : b.writerIndex + len ≤ maxSize) :
    ∃ b', b.makeSpace len = .ok b' ∧ b'.WF ∧ b'.readable = b.readable ∧
      b'.writableBytes = len := by
  have hw := h.writer_le
  have hwb := h.writableBytes_eq
  have hmax := maxSize_add_maxSize_lt
  have hadd : sizeAdd b.writerIndex len = b.writerIndex + len := sizeAdd_eq (by omega)
  have hgrow : b.buffer.length ≤ b.writerIndex + len := by
    change b.size ≤ _
    omega
  rw [makeSpace, h.sizeAdd_lengths, if_pos hlen, hadd, resize_grow hfits hgrow, bind_ok]
  set grown : Buffer := { b with
    buffer := b.buffer ++ List.replicate (b.writerIndex + len - b.buffer.length) 0 } with hgrown
  have hsize : grown.size = b.writerIndex + len := by
    change (b.buffer ++ List.replicate (b.writerIndex + len - b.buffer.length) 0).length = _
    rw [List.length_append, List.length_replicate]
    omega
  have hwf : grown.WF := ⟨⟨h.reader_le, by rw [hsize]; exact Nat.le_add_right _ _⟩, hsize ▸ hfits⟩
  refine ⟨grown, rfl, hwf, List.window_append_right hw _, ?_⟩
  rw [hwf.writableBytes_eq, hsize]
  exact Nat.add_sub_cancel_left _ _

/-- The compacting branch moves the readable bytes to the front, whatever was asked for. -/
theorem makeSpace_compact (h : b.WF) (hlen : len ≤ b.writableBytes + b.readableBytes) :
    ∃ b', b.makeSpace len = .ok b' ∧ b'.WF ∧ b'.readable = b.readable ∧
      b'.writableBytes = b.readerIndex + b.writableBytes := by
  have hw := h.writer_le
  have hr := h.reader_le
  have hs := h.size_le
  have hmax := maxSize_add_maxSize_lt
  have hadd : b.compacted.writerIndex = b.writerIndex - b.readerIndex := by
    rw [compacted, h.readableBytes_eq]
    exact (sizeAdd_eq (by omega)).trans (Nat.zero_add _)
  have hsize : b.compacted.size = b.size := by
    refine List.length_writeAt ?_
    rw [h.length_readable, h.readableBytes_eq]
    change _ ≤ b.size
    omega
  have hwf : b.compacted.WF :=
    ⟨⟨Nat.zero_le _, by rw [hsize, hadd]; omega⟩, hsize ▸ hs⟩
  have hcheck : b.readableBytes = b.compacted.readableBytes := by
    rw [h.readableBytes_eq, hwf.readableBytes_eq, hadd, compacted, Nat.sub_zero]
  refine ⟨b.compacted, ?_, hwf, ?_, ?_⟩
  · rw [makeSpace, h.sizeAdd_lengths, if_neg (Nat.not_lt.mpr hlen), check_pos hcheck, bind_ok]
  · rw [readable, hadd]
    exact List.window_writeAt_zero hw
  · rw [hwf.writableBytes_eq, hsize, hadd, h.writableBytes_eq]
    omega

/-- A servable request is served, unless the vector refuses to grow that far. -/
theorem ensureWriteBytes_spec (h : b.WF) (hs : b.Servable len) :
    (∃ b', b.ensureWriteBytes len = .ok b' ∧ b'.WF ∧ b'.readable = b.readable ∧
      len ≤ b'.writableBytes) ∨ b.ensureWriteBytes len = .error .lengthError := by
  rw [ensureWriteBytes]
  by_cases hroom : b.writableBytes < len
  · rw [if_pos hroom]
    rcases Nat.lt_or_ge (b.writableBytes + b.readableBytes) len with hgrow | hcompact
    · by_cases hfits : b.writerIndex + len ≤ maxSize
      · obtain ⟨b', hb', hwf, hread, hwb⟩ := makeSpace_grow h hgrow hfits
        have hle : len ≤ b'.writableBytes := Nat.le_of_eq hwb.symm
        exact Or.inl ⟨b', by rw [hb', bind_ok, check_pos hle, bind_ok], hwf, hread, hle⟩
      · refine Or.inr ?_
        rw [makeSpace, h.sizeAdd_lengths, if_pos hgrow, sizeAdd_eq hs.2, resize, if_neg hfits]
        rfl
    · obtain ⟨b', hb', hwf, hread, hwb⟩ := makeSpace_compact h hcompact
      have hle : len ≤ b'.writableBytes := by
        rw [hwb]
        exact hs.1.resolve_left (Nat.not_lt.mpr hcompact)
      exact Or.inl ⟨b', by rw [hb', bind_ok, check_pos hle, bind_ok], hwf, hread, hle⟩
  · have hle : len ≤ b.writableBytes := Nat.not_lt.mp hroom
    rw [if_neg hroom, bind_ok, check_pos hle, bind_ok]
    exact Or.inl ⟨b, rfl, h, rfl, hle⟩

/-- A request that is not servable ends in the assert, or it wraps and cuts the storage off below
the writer. -/
theorem ensureWriteBytes_of_not_servable (h : b.WF) (hs : ¬b.Servable len)
    (hlen : len < sizeModulus) :
    b.ensureWriteBytes len = .error (.assertion .ensureWriteBytes) ∨
      ∃ b', b.ensureWriteBytes len = .ok b' ∧ b'.size < b'.writerIndex := by
  have hw := h.writer_le
  have hwb := h.writableBytes_eq
  have hrb := h.readableBytes_eq
  have hsize := h.size_le
  have hmax := maxSize_add_maxSize_lt
  rcases Nat.lt_or_ge (b.writerIndex + len) sizeModulus with hnowrap | hwrap
  · -- the request is at most what compacting is tried for, and more than it gives
    have hle : len ≤ b.writableBytes + b.readableBytes := by
      by_contra hgt
      exact hs ⟨Or.inl (Nat.not_le.mp hgt), hnowrap⟩
    have hgt : b.readerIndex + b.writableBytes < len := by
      by_contra hge
      exact hs ⟨Or.inr (Nat.not_lt.mp hge), hnowrap⟩
    obtain ⟨b', hb', hwf, hread, hwb'⟩ := makeSpace_compact h hle
    left
    rw [ensureWriteBytes, if_pos (by omega), hb', bind_ok, check_neg (by omega), bind_error]
  · right
    have hadd : sizeAdd b.writerIndex len = b.writerIndex + len - sizeModulus := by
      rw [sizeAdd, Nat.mod_eq_sub_mod hwrap, Nat.mod_eq_of_lt (by omega)]
    have hn : sizeAdd b.writerIndex len ≤ maxSize := by omega
    rw [ensureWriteBytes, if_pos (by omega), makeSpace, h.sizeAdd_lengths, if_pos (by omega),
      resize, if_pos hn, bind_ok]
    set cut : Buffer := ⟨b.buffer.take (sizeAdd b.writerIndex len) ++
      List.replicate (sizeAdd b.writerIndex len - b.buffer.length) 0,
      b.readerIndex, b.writerIndex⟩ with hcut
    have hwriter : cut.writerIndex = b.writerIndex := rfl
    have hcutsize : cut.size = b.writerIndex + len - sizeModulus := by
      rw [size, hcut, length_take_append_replicate, hadd]
    have hroom : cut.writableBytes = len := by
      rw [writableBytes, hcutsize, hwriter]
      exact sizeSub_wrapped (by omega) hlen hwrap
    have hle : len ≤ cut.writableBytes := Nat.le_of_eq hroom.symm
    refine ⟨cut, by rw [bind_ok, check_pos hle, bind_ok], ?_⟩
    rw [hcutsize, hwriter]
    omega

/-! ## Filling -/

/-- Writing what fits behind the writer. -/
theorem copyIn_ok_of_le (h : b.WF) (hlen : data.length ≤ b.writableBytes) :
    b.copyIn data = .ok { b with buffer := b.buffer.writeAt b.writerIndex data } ∧
      (⟨b.buffer.writeAt b.writerIndex data, b.readerIndex,
        b.writerIndex + data.length⟩ : Buffer).WF ∧
      (⟨b.buffer.writeAt b.writerIndex data, b.readerIndex,
        b.writerIndex + data.length⟩ : Buffer).readable = b.readable ++ data ∧
      (b.buffer.writeAt b.writerIndex data).length = b.size := by
  have hwb := h.writableBytes_eq
  have hw := h.writer_le
  have hfit : b.writerIndex + data.length ≤ b.size := by omega
  have hsize : (b.buffer.writeAt b.writerIndex data).length = b.size := List.length_writeAt hfit
  refine ⟨by rw [copyIn, if_neg (fun hc ↦ by omega)], ⟨⟨?_, ?_⟩, ?_⟩, ?_, hsize⟩
  · exact Nat.le_trans h.reader_le (Nat.le_add_right _ _)
  · rw [size, hsize]
    exact hfit
  · rw [size, hsize]
    exact h.size_le
  · exact List.window_writeAt h.reader_le hfit

/-- Writing at `beginWrite()` and counting the bytes as written appends them. -/
theorem copyIn_hasWritten (h : b.WF) (hlen : data.length ≤ b.writableBytes) :
    ∃ b', b.copyIn data = .ok b' ∧ b'.hasWritten data.length = .ok
        { b' with writerIndex := b.writerIndex + data.length } ∧
      (⟨b'.buffer, b'.readerIndex, b.writerIndex + data.length⟩ : Buffer).WF ∧
      (⟨b'.buffer, b'.readerIndex, b.writerIndex + data.length⟩ : Buffer).readable =
        b.readable ++ data := by
  obtain ⟨hcopy, hwf, hread, hsize⟩ := copyIn_ok_of_le h hlen
  refine ⟨_, hcopy, ?_, hwf, hread⟩
  have hcopied : ({ b with buffer := b.buffer.writeAt b.writerIndex data } : Buffer).WF :=
    ⟨⟨h.reader_le, by rw [size, hsize]; exact h.writer_le⟩, by rw [size, hsize]; exact h.size_le⟩
  have hroom : data.length ≤
      ({ b with buffer := b.buffer.writeAt b.writerIndex data } : Buffer).writableBytes := by
    rw [hcopied.writableBytes_eq, size, hsize, ← h.writableBytes_eq]
    exact hlen
  rw [hasWritten, check_pos hroom, bind_ok, h.sizeAdd_writerIndex hlen]

/-- What an append does once room is made. -/
theorem append_of_ensured {roomy : Buffer} (hens : b.ensureWriteBytes data.length = .ok roomy)
    (hwf : roomy.WF) (hroom : data.length ≤ roomy.writableBytes)
    (hread : roomy.readable = b.readable) :
    ∃ b', b.append data = .ok b' ∧ b'.WF ∧ b'.readable = b.readable ++ data := by
  obtain ⟨filled, hfilled, hwritten, hwf', hread'⟩ := copyIn_hasWritten hwf hroom
  refine ⟨_, ?_, hwf', hread'.trans (by rw [hread])⟩
  rw [append, hens, bind_ok, hfilled, bind_ok, hwritten]

/-- A servable append puts its bytes behind those already there. -/
theorem append_spec (h : b.WF) (hs : b.Servable data.length) :
    (∃ b', b.append data = .ok b' ∧ b'.WF ∧ b'.readable = b.readable ++ data) ∨
      b.append data = .error .lengthError := by
  rcases ensureWriteBytes_spec h hs with ⟨roomy, hens, hwf, hread, hroom⟩ | herr
  · exact Or.inl (append_of_ensured hens hwf hroom hread)
  · exact Or.inr (by rw [append, herr, bind_error])

/-- The faults of the calls on a buffer. -/
def BufferFault : Fault → Prop
  | .lengthError | .outOfBounds | .impossible => True
  | .assertion site =>
    site = .retrieve ∨ site = .ensureWriteBytes ∨ site = .makeSpace ∨ site = .hasWritten
  | .nullPointer | .useAfterFree | .indeterminate | .abort | .divergence => False

theorem ensureWriteBytes_error {e : Fault} (h : b.ensureWriteBytes len = .error e) :
    BufferFault e := by
  rw [ensureWriteBytes, bind_eq_error] at h
  rcases h with h | ⟨roomy, -, h⟩
  · split at h
    · rw [makeSpace] at h
      split at h
      · rcases bind_eq_error.mp h with h | ⟨_, _, h⟩
        · rw [resize] at h
          split at h
          · exact absurd h (by simp)
          · rw [Except.error.injEq] at h
            exact h ▸ trivial
        · exact absurd h (by simp)
      · rcases bind_eq_error.mp h with h | ⟨_, _, h⟩
        · exact (check_eq_error.mp h).2 ▸ Or.inr (Or.inr (Or.inl rfl))
        · exact absurd h (by simp)
    · exact absurd h (by simp)
  · rcases bind_eq_error.mp h with h | ⟨_, _, h⟩
    · exact (check_eq_error.mp h).2 ▸ Or.inr (Or.inl rfl)
    · exact absurd h (by simp)

theorem copyIn_error {e : Fault} (h : b.copyIn data = .error e) : BufferFault e := by
  rw [copyIn] at h
  split at h
  · rw [Except.error.injEq] at h
    exact h ▸ trivial
  · exact absurd h (by simp)

theorem append_error {e : Fault} (h : b.append data = .error e) : BufferFault e := by
  rw [append, bind_eq_error] at h
  rcases h with h | ⟨roomy, -, h⟩
  · exact ensureWriteBytes_error h
  · rcases bind_eq_error.mp h with h | ⟨filled, -, h⟩
    · exact copyIn_error h
    · rw [hasWritten] at h
      rcases bind_eq_error.mp h with h | ⟨_, _, h⟩
      · exact (check_eq_error.mp h).2 ▸ Or.inr (Or.inr (Or.inr rfl))
      · exact absurd h (by simp)

theorem writableBytes_lt (b : Buffer) : b.writableBytes < sizeModulus :=
  Nat.mod_lt _ (by decide)

/-- An append that returns was servable. -/
theorem servable_of_append_ok (h : b.WF) (happ : b.append data = .ok b') :
    b.Servable data.length := by
  by_contra hs
  rw [append] at happ
  obtain ⟨roomy, hroomy, happ⟩ := bind_eq_ok.mp happ
  obtain ⟨filled, hfilled, -⟩ := bind_eq_ok.mp happ
  rcases Nat.lt_or_ge data.length sizeModulus with hlen | hlen
  · rcases ensureWriteBytes_of_not_servable h hs hlen with herr | ⟨cut, hcut, hlt⟩
    · rw [herr] at hroomy
      exact absurd hroomy (by simp)
    · rw [hcut, Except.ok.injEq] at hroomy
      subst hroomy
      have hdata : data ≠ [] := by
        rintro rfl
        have hw := h.writerIndex_le
        have hmax := maxSize_add_maxSize_lt
        exact hs ⟨Or.inr (Nat.zero_le _), by rw [List.length_nil]; omega⟩
      rw [copyIn, if_pos ⟨hdata, Nat.lt_of_lt_of_le hlt (Nat.le_add_right _ _)⟩] at hfilled
      exact absurd hfilled (by simp)
  · -- no vector has that much room
    rw [ensureWriteBytes] at hroomy
    obtain ⟨_, -, hroomy⟩ := bind_eq_ok.mp hroomy
    obtain ⟨_, hcheck, -⟩ := bind_eq_ok.mp hroomy
    have hle := check_eq_ok.mp hcheck
    exact absurd (Nat.le_trans hlen hle) (Nat.not_le.mpr (writableBytes_lt _))

/-- An append that returns has done what it should, whatever it was asked. -/
theorem append_ok (h : b.WF) (happ : b.append data = .ok b') :
    b'.WF ∧ b'.readable = b.readable ++ data := by
  rcases append_spec h (servable_of_append_ok h happ) with ⟨c, hc, hwf, hread⟩ | herr
  · rw [hc, Except.ok.injEq] at happ
    exact happ ▸ ⟨hwf, hread⟩
  · rw [herr] at happ
    exact absurd happ (by simp)

/-- An empty buffer serves every request that an object in memory can make. -/
theorem servable_of_readable_nil (h : b.WF) (hnil : b.readable = []) (hlen : len ≤ maxSize) :
    b.Servable len := by
  have hw := h.writerIndex_le
  have hr := h.readableBytes_eq_zero_iff.mpr hnil
  have hmax := maxSize_add_maxSize_lt
  refine ⟨?_, by omega⟩
  rw [hr, Nat.add_zero]
  rcases Nat.lt_or_ge b.writableBytes len with h1 | h1
  · exact Or.inl h1
  · exact Or.inr (Nat.le_trans h1 (Nat.le_add_left _ _))

end Buffer

end Twnl
