import Mathlib.Data.Option.Basic
import Twnl.Buffer.Spec

/-!
# Swapping two buffers

`swap` exchanges the storage of two buffers and then their reader indices, twice. So the storage
moves and all four indices stay: each buffer reads the other's storage at its own indices.

## What is seen of it

`observe` lists what a sequence of calls shows of a buffer. After a swap each buffer shows what the
other showed before exactly when the two had the same indices, in which case nothing but the storage
has to move (`swaps_iff`).
-/

namespace Twnl

namespace Buffer

/-- The calls that show what is in a buffer, or take it out. -/
inductive Look
  | peek
  | readableBytes
  | writableBytes
  | retrieve (len : ℕ)
  | writeFd (answer : WriteResult) (savedErrno : Option Errno)

/-- What a call shows: the bytes to be read from a pointer, a count, nothing, or what a write gave
back and what it wrote. -/
inductive Seen
  | bytes (bytes : List Byte)
  | count (n : ℕ)
  | nothing
  | written (ret : ℤ) (savedErrno : Option Errno) (taken : List Byte)
  deriving DecidableEq

/-- One call, and what it leaves. -/
def look (b : Buffer) : Look → Except Fault (Seen × Buffer)
  | .peek => .ok (.bytes b.readable, b)
  | .readableBytes => .ok (.count b.readableBytes, b)
  | .writableBytes => .ok (.count b.writableBytes, b)
  | .retrieve len => do
    let rest ← b.retrieve len
    .ok (.nothing, rest)
  | .writeFd answer savedErrno =>
    let w := b.writeFd answer savedErrno
    .ok (.written w.ret w.savedErrno w.taken, w.buffer)

/-- What a sequence of calls shows, up to and including one that fails. -/
def observe (b : Buffer) : List Look → List (Except Fault Seen)
  | [] => []
  | l :: ls =>
    match b.look l with
    | .ok (seen, rest) => .ok seen :: rest.observe ls
    | .error e => [.error e]

/-- The two buffers are in order after the swap, each shows from then on what the other would have
shown, and a second swap undoes the first. -/
structure Swaps (a b : Buffer) : Prop where
  ordered : (a.swap b).1.Ordered ∧ (a.swap b).2.Ordered
  observe_left : ∀ ls, (a.swap b).1.observe ls = b.observe ls
  observe_right : ∀ ls, (a.swap b).2.observe ls = a.observe ls
  swap_swap : (a.swap b).1.swap (a.swap b).2 = (a, b)

variable {a b : Buffer}

/-- What the swap comes to. -/
theorem swap_eq (a b : Buffer) :
    a.swap b = (⟨b.buffer, a.readerIndex, a.writerIndex⟩,
      ⟨a.buffer, b.readerIndex, b.writerIndex⟩) := rfl

theorem swap_swap (a b : Buffer) : (a.swap b).1.swap (a.swap b).2 = (a, b) := rfl

/-- The indices of a buffer are in order in the other's storage when they are inside it. -/
theorem ordered_swap_iff (h : a.Ordered) :
    (a.swap b).1.Ordered ↔ a.writerIndex ≤ b.size := by
  constructor
  · intro hswap
    exact hswap.writer_le
  · intro hle
    exact ⟨h.reader_le, hle⟩

/-- Two buffers with the same indices are exchanged. -/
theorem swap_of_indices_eq (hr : a.readerIndex = b.readerIndex)
    (hw : a.writerIndex = b.writerIndex) : a.swap b = (b, a) := by
  have hb : (⟨b.buffer, a.readerIndex, a.writerIndex⟩ : Buffer) = b := by rw [hr, hw]
  have ha : (⟨a.buffer, b.readerIndex, b.writerIndex⟩ : Buffer) = a := by rw [← hr, ← hw]
  rw [swap_eq, hb, ha]

theorem swaps_of_indices_eq (ha : a.WF) (hb : b.WF) (hr : a.readerIndex = b.readerIndex)
    (hw : a.writerIndex = b.writerIndex) : Swaps a b := by
  have hswap := swap_of_indices_eq hr hw
  refine ⟨?_, ?_, ?_, swap_swap a b⟩
  · rw [hswap]
    exact ⟨hb.toOrdered, ha.toOrdered⟩
  · intro ls
    rw [hswap]
  · intro ls
    rw [hswap]

/-- The free tail tells where the writer is. -/
theorem writerIndex_eq_of_writableBytes {w : ℕ} (hb : b.WF) (hw : w ≤ b.size)
    (h : (⟨b.buffer, a.readerIndex, w⟩ : Buffer).writableBytes = b.writableBytes) :
    w = b.writerIndex := by
  have hmax := maxSize_add_maxSize_lt
  have hsize := hb.size_le
  have hwriter := hb.writer_le
  rw [hb.writableBytes_eq, writableBytes] at h
  change sizeSub b.size w = _ at h
  rw [sizeSub_eq hw (by omega)] at h
  omega

/-- **Exchange.** For any two well-formed buffers, `swap` exchanges the two queues exactly when the
reader and the writer of the one stand where those of the other do. -/
theorem swaps_iff (ha : a.WF) (hb : b.WF) :
    Swaps a b ↔ a.readerIndex = b.readerIndex ∧ a.writerIndex = b.writerIndex := by
  constructor
  · intro h
    have hle := (ordered_swap_iff ha.toOrdered).mp h.ordered.1
    -- one look at each of the two lengths
    have hwritable : (a.swap b).1.writableBytes = b.writableBytes := by
      simpa [observe, look] using h.observe_left [.writableBytes]
    have hreadable : (a.swap b).1.readableBytes = b.readableBytes := by
      simpa [observe, look] using h.observe_left [.readableBytes]
    have hw : a.writerIndex = b.writerIndex := writerIndex_eq_of_writableBytes hb hle hwritable
    have hswap : (a.swap b).1.readableBytes = a.readableBytes := rfl
    have hra := ha.reader_le
    have hrb := hb.reader_le
    rw [hswap, ha.readableBytes_eq, hb.readableBytes_eq] at hreadable
    exact ⟨by omega, hw⟩
  · rintro ⟨hr, hw⟩
    exact swaps_of_indices_eq ha hb hr hw

/-- Two buffers of different sizes with three bytes each. -/
theorem swaps_of_three :
    Swaps ⟨[1, 2, 3, 0], 0, 3⟩ ⟨[4, 5, 6, 0, 0, 0], 0, 3⟩ :=
  (swaps_iff ⟨⟨by decide, by decide⟩, by decide⟩ ⟨⟨by decide, by decide⟩, by decide⟩).mpr
    ⟨rfl, rfl⟩

/-- Three bytes in a buffer of eight, swapped with a new buffer of sixteen: the new buffer still has
nothing to read, and the three bytes are gone from both. -/
theorem not_swaps_of_new :
    ((new 8 >>= fun b ↦ b.append [1, 2, 3]) = .ok ⟨[1, 2, 3, 0, 0, 0, 0, 0], 0, 3⟩ ∧
      new 16 = .ok ⟨List.replicate 16 0, 0, 0⟩) ∧
      ¬Swaps ⟨[1, 2, 3, 0, 0, 0, 0, 0], 0, 3⟩ ⟨List.replicate 16 0, 0, 0⟩ := by
  refine ⟨⟨by decide, by decide⟩, fun h ↦ ?_⟩
  have hpeek := h.observe_right [.peek]
  exact absurd hpeek (by decide)

end Buffer

end Twnl
