import Twnl.Buffer.Fill
import Twnl.Machine.Run

/-!
# When a read appends what was read

A read of more than the free tail spills into a buffer on the stack, and the spill is appended when
the writer is already at the end of the storage. Then there is no free tail left, so `makeSpace`
grows the storage when the spill is larger than what is readable, and else moves the readable bytes
to the front, which frees as many bytes as were in front of the reader. The spill is placed exactly
when the branch that is taken makes room for it (`Placed`), and this is when the read does what it
should (`reads_iff_placed`).
-/

namespace Twnl

namespace Buffer

open Machine

/-- The uses of a buffer that the input side of a connection makes. -/
inductive Use
  | append (data : List Byte)
  | retrieve (len : ℕ)
  | retrieveAll
  | read (answer : ReadResult)
  deriving DecidableEq, Repr

def use (b : Buffer) : Use → Except Fault Buffer
  | .append data => b.append data
  | .retrieve len => b.retrieve len
  | .retrieveAll => .ok b.retrieveAll
  | .read answer => do
    let (_, _, rest) ← b.readFd answer none
    .ok rest

/-- The read returns the count and leaves the indices in order and the bytes behind those that were
readable. -/
def ReadsExactly (b : Buffer) (bytes : List Byte) (saved : Option Errno) : Prop :=
  Outcome (b.readFd (.data bytes) saved)
    (fun r ↦ r.1 = bytes.length ∧ r.2.2.Ordered ∧ r.2.2.readable = b.readable ++ bytes)
    fun _ ↦ False

instance (b : Buffer) (bytes : List Byte) (saved : Option Errno) :
    Decidable (b.ReadsExactly bytes saved) :=
  Outcome.decidable _ _ _

/-- The bytes fit in the free tail, or the spill is larger than what is readable when it is appended
and the storage may grow by it, or it is not and there are as many bytes in front of the reader. -/
def Placed (b : Buffer) (n : ℕ) : Prop :=
  n ≤ b.writableBytes ∨
    (b.size - b.readerIndex < n - b.writableBytes ∧ b.size + (n - b.writableBytes) ≤ maxSize) ∨
    (n - b.writableBytes ≤ b.size - b.readerIndex ∧ n - b.writableBytes ≤ b.readerIndex)

instance (b : Buffer) (n : ℕ) : Decidable (b.Placed n) := inferInstanceAs (Decidable (_ ∨ _))

variable {b b' : Buffer} {bytes data : List Byte} {saved : Option Errno}

/-- A request past the free tail of a buffer returns exactly when the branch of `makeSpace` makes
room for it. -/
theorem append_returns_iff (h : b.WF) (data : List Byte) (hroom : b.writableBytes < data.length)
    (hwrap : b.writerIndex + data.length < sizeModulus) :
    (∃ b', b.append data = .ok b') ↔
      (b.writableBytes + b.readableBytes < data.length ∧
        b.writerIndex + data.length ≤ maxSize) ∨
      (data.length ≤ b.writableBytes + b.readableBytes ∧
        data.length ≤ b.readerIndex + b.writableBytes) := by
  rcases Nat.lt_or_ge (b.writableBytes + b.readableBytes) data.length with hgrow | hcompact
  · rw [or_iff_left fun hright ↦ absurd hright.1 (Nat.not_le.mpr hgrow), and_iff_right hgrow]
    constructor
    · rintro ⟨b', hb'⟩
      by_contra hfits
      have herr : b.ensureWriteBytes data.length = .error .lengthError := by
        rw [ensureWriteBytes, if_pos hroom, makeSpace, h.sizeAdd_lengths, if_pos hgrow,
          sizeAdd_eq hwrap, resize, if_neg hfits]
        rfl
      rw [append, herr] at hb'
      exact absurd hb' error_ne_ok
    · intro hfits
      obtain ⟨roomy, hroomy, hwf, hread, hwb⟩ := makeSpace_grow h hgrow hfits
      have hle : data.length ≤ roomy.writableBytes := Nat.le_of_eq hwb.symm
      have hens : b.ensureWriteBytes data.length = .ok roomy := by
        rw [ensureWriteBytes, if_pos hroom, hroomy, bind_ok, check_pos hle, bind_ok]
      obtain ⟨b', hb', -, -⟩ := append_of_ensured hens hwf hle hread
      exact ⟨b', hb'⟩
  · rw [or_iff_right fun hleft ↦ absurd hleft.1 (Nat.not_lt.mpr hcompact), and_iff_right hcompact]
    obtain ⟨roomy, hroomy, hwf, hread, hwb⟩ := makeSpace_compact h hcompact
    rw [← hwb]
    constructor
    · rintro ⟨b', hb'⟩
      obtain ⟨_, hens, -⟩ := bind_eq_ok.mp hb'
      rw [ensureWriteBytes, if_pos hroom, hroomy, bind_ok] at hens
      obtain ⟨_, hcheck, -⟩ := bind_eq_ok.mp hens
      exact check_eq_ok.mp hcheck
    · intro hle
      have hens : b.ensureWriteBytes data.length = .ok roomy := by
        rw [ensureWriteBytes, if_pos hroom, hroomy, bind_ok, check_pos hle, bind_ok]
      obtain ⟨b', hb', -, -⟩ := append_of_ensured hens hwf hle hread
      exact ⟨b', hb'⟩

/-- A read returns exactly when what is read is placed. -/
theorem readFd_returns_iff (h : b.WF) (hlen : bytes.length ≤ b.writableBytes + extraSize)
    (saved : Option Errno) :
    (∃ r, b.readFd (.data bytes) saved = .ok r) ↔ b.Placed bytes.length := by
  have hsize := h.size_le
  have hmax := maxSize_add_maxSize_lt
  have hextra : extraSize ≤ maxSize := by decide
  have hr := h.reader_le
  have hw := h.writer_le
  rw [readFd, if_neg (Nat.not_lt.mpr hlen)]
  by_cases hle : bytes.length ≤ b.writableBytes
  · rw [if_pos hle, (copyIn_ok_of_le h hle).1, bind_ok]
    exact iff_of_true ⟨_, rfl⟩ (Or.inl hle)
  have htake : (bytes.take b.writableBytes).length = b.writableBytes :=
    List.length_take_of_le (Nat.le_of_not_le hle)
  obtain ⟨hcopy, hwf, -, hcopied⟩ := copyIn_ok_of_le h (Nat.le_of_eq htake)
  have hfull : b.writerIndex + (bytes.take b.writableBytes).length = b.size := by
    rw [htake, h.writableBytes_eq]
    omega
  rw [hfull, ← hcopied] at hwf
  rw [if_neg hle, hcopy, bind_ok]
  -- the writer is at the end of the storage, so that there is no free tail
  set full : Buffer := ⟨b.buffer.writeAt b.writerIndex (bytes.take b.writableBytes),
    b.readerIndex, (b.buffer.writeAt b.writerIndex (bytes.take b.writableBytes)).length⟩ with hdef
  have hfsize : full.size = b.size := hcopied
  have hfwriter : full.writerIndex = b.size := hcopied
  have hfwritable : full.writableBytes = 0 := by
    rw [hwf.writableBytes_eq, hfsize, hfwriter, Nat.sub_self]
  have hfreadable : full.readableBytes = b.size - b.readerIndex := by
    rw [hwf.readableBytes_eq, hfwriter]
  have hdrop : (bytes.drop b.writableBytes).length = bytes.length - b.writableBytes :=
    List.length_drop
  have hspill := append_returns_iff hwf (bytes.drop b.writableBytes)
    (by rw [hfwritable, hdrop]; omega) (by rw [hfwriter, hdrop]; omega)
  rw [hfwritable, hfreadable, hfwriter, hdrop, Nat.zero_add] at hspill
  rw [Placed, or_iff_right hle]
  refine Iff.trans ?_ hspill
  constructor
  · rintro ⟨r, hr⟩
    obtain ⟨spilled, hspilled, -⟩ := bind_eq_ok.mp hr
    exact ⟨spilled, hspilled⟩
  · rintro ⟨spilled, hspilled⟩
    exact ⟨_, bind_eq_ok.mpr ⟨spilled, hspilled, rfl⟩⟩

/-- What a read does is as it should be whenever it returns. -/
theorem readsExactly_iff_placed (h : b.WF) (hlen : bytes.length ≤ b.writableBytes + extraSize) :
    b.ReadsExactly bytes saved ↔ b.Placed bytes.length := by
  rw [← readFd_returns_iff h hlen saved, ReadsExactly]
  cases hread : b.readFd (.data bytes) saved with
  | error e => exact iff_of_false id nofun
  | ok r =>
    refine iff_of_true ?_ ⟨r, rfl⟩
    obtain ⟨n, saved', b'⟩ := r
    obtain ⟨hwf, hn, ⟨bytes', hbytes, -, hreadable⟩ | ⟨e, he, -⟩⟩ := readFd_ok h hread
    · obtain rfl := ReadResult.data.inj hbytes
      exact ⟨hn, hwf.toOrdered, hreadable⟩
    · exact absurd he nofun

/-- The step lemma. -/
theorem WF.use (h : b.WF) {u : Use} (hb' : b.use u = .ok b') : b'.WF := by
  cases u with
  | append data => exact (append_ok h hb').1
  | retrieve len =>
    by_cases hlen : len ≤ b.readableBytes
    · obtain ⟨rest, hrest, hwf, -⟩ := retrieve_spec h hlen
      exact Except.ok.inj (hrest.symm.trans hb') ▸ hwf
    · obtain ⟨_, hcheck, -⟩ := bind_eq_ok.mp hb'
      exact absurd (check_eq_ok.mp hcheck) hlen
  | retrieveAll => exact Except.ok.inj hb' ▸ retrieveAll_wf h
  | read answer =>
    obtain ⟨⟨n, saved, rest⟩, hread, hb'⟩ := bind_eq_ok.mp hb'
    exact Except.ok.inj hb' ▸ (readFd_ok h hread).1

/-- **When a read appends what was read.** In every buffer that appends, retrievals and reads lead
to, and for every count the kernel can answer, a read puts exactly the bytes that were read behind
those that were readable, with the indices in order and no byte written past the storage, exactly
when they are placed; and a read that fails leaves the buffer as it was. -/
theorem reads_iff_placed {n : ℕ} {new : Buffer} (hnew : Buffer.new n = .ok new) {uses : List Use}
    (hrun : run Buffer.use new uses = .ok b) :
    (∀ bytes : List Byte, bytes.length ≤ b.writableBytes + extraSize → ∀ saved,
        b.ReadsExactly bytes saved ↔ b.Placed bytes.length) ∧
      ∀ e saved, b.readFd (.fails e) saved = .ok (-1, some e, b) := by
  have hwf : b.WF := run_inv (fun _ _ _ h ht ↦ h.use ht) (new_spec hnew).1 hrun
  exact ⟨fun _ hlen _ ↦ readsExactly_iff_placed hwf hlen, fun _ _ ↦ rfl⟩

/-- A buffer of eight with six bytes in it, four of them retrieved: a read of six spills four, which
the four bytes in front of the reader hold. -/
theorem reads_spilled :
    ∃ b, run Buffer.use ⟨List.replicate 8 0, 0, 0⟩ [.append [1, 2, 3, 4, 5, 6], .retrieve 4]
        = .ok b ∧
      b.ReadsExactly [7, 8, 9, 10, 11, 12] none ∧ b.readFd (.fails .EAGAIN) none
        = .ok (-1, some .EAGAIN, b) := by
  have hrun : ∃ b, run Buffer.use ⟨List.replicate 8 0, 0, 0⟩
      [.append [1, 2, 3, 4, 5, 6], .retrieve 4] = .ok b ∧
      [7, 8, 9, 10, 11, 12].length ≤ b.writableBytes + extraSize ∧ b.Placed 6 :=
    ⟨_, rfl, by decide, by decide⟩
  obtain ⟨b, hb, hlen, hplaced⟩ := hrun
  obtain ⟨hreads, hfails⟩ := reads_iff_placed (n := 8) rfl hb
  exact ⟨b, hb, (hreads _ hlen none).mpr hplaced, hfails _ _⟩

/-- A fresh buffer of eight and a read of ten: the eight in the free tail are readable when the two
that spilled are appended, so the storage is not grown, and there is nothing in front of the
reader. -/
theorem not_reads_fresh :
    new 8 = .ok ⟨List.replicate 8 0, 0, 0⟩ ∧
      [1, 2, 3, 4, 5, 6, 7, 8, 9, 10].length
        ≤ (⟨List.replicate 8 0, 0, 0⟩ : Buffer).writableBytes + extraSize ∧
      ¬(⟨List.replicate 8 0, 0, 0⟩ : Buffer).ReadsExactly [1, 2, 3, 4, 5, 6, 7, 8, 9, 10] none ∧
      (⟨List.replicate 8 0, 0, 0⟩ : Buffer).readFd (.data [1, 2, 3, 4, 5, 6, 7, 8, 9, 10]) none
        = .error (.assertion .ensureWriteBytes) :=
  ⟨rfl, by decide, by decide, by decide⟩

end Buffer

end Twnl
