import Mathlib.Algebra.Group.Nat.Defs
import Twnl.Fault
import Twnl.Kernel
import Twnl.Machine.Window

/-!
# The buffer

The byte storage of a connection: a vector with a reader index and a writer index, between which
lie the bytes that were put in and not yet taken out.

## Sizes

`size_t` is a natural number below `2 ^ 64` and its arithmetic wraps. Under the ordering of the
indices the two lengths are plain differences, and the only sum that can wrap is the one
`makeSpace` asks the vector to grow to. A vector of characters refuses to grow past `maxSize`.

## Asserts

`ensureWriteBytes` asserts that it made room. The assert is a check here, so a request it fails on
stops the run where an `NDEBUG` build would go on to write past the storage.
-/

namespace Twnl

/-- One more than the largest `size_t`. -/
def sizeModulus : ℕ := 2 ^ 64

/-- `std::vector<char>::max_size()`. -/
def maxSize : ℕ := 2 ^ 63 - 1

/-- `a + b` on `size_t`. -/
def sizeAdd (a b : ℕ) : ℕ := (a + b) % sizeModulus

/-- `a - b` on `size_t`. -/
def sizeSub (a b : ℕ) : ℕ := (a + (sizeModulus - b)) % sizeModulus

/-- Two vectors of characters can be counted together. -/
theorem maxSize_add_maxSize_lt : maxSize + maxSize < sizeModulus := by decide

theorem sizeAdd_eq {a b : ℕ} (h : a + b < sizeModulus) : sizeAdd a b = a + b :=
  Nat.mod_eq_of_lt h

theorem sizeSub_eq {a b : ℕ} (hba : b ≤ a) (ha : a < sizeModulus) : sizeSub a b = a - b := by
  rw [sizeSub, show a + (sizeModulus - b) = a - b + sizeModulus from by omega,
    Nat.add_mod_right, Nat.mod_eq_of_lt (by omega)]

/-- A difference that a wrapped sum went past comes out as the summand. -/
theorem sizeSub_wrapped {a n : ℕ} (ha : a < sizeModulus) (hn : n < sizeModulus)
    (hwrap : sizeModulus ≤ a + n) : sizeSub (a + n - sizeModulus) a = n := by
  have h : a + n - sizeModulus + (sizeModulus - a) = n := by omega
  rw [sizeSub, h, Nat.mod_eq_of_lt hn]

/-- `vector::resize`: cuts the storage or fills it up with zeros. -/
def resize (storage : List Byte) (n : ℕ) : Except Fault (List Byte) :=
  if n ≤ maxSize then .ok (storage.take n ++ List.replicate (n - storage.length) 0)
  else .error .lengthError

/-- The buffer of a connection. -/
structure Buffer where
  buffer : List Byte
  readerIndex : ℕ
  writerIndex : ℕ
  deriving DecidableEq, Repr

namespace Buffer

/-- The size of the buffers of a connection. -/
def kInitialSize : ℕ := 1024

/-- The constructor, whose vector refuses sizes above `maxSize`. -/
def new (initialSize : ℕ) : Except Fault Buffer := do
  let storage ← resize [] initialSize
  .ok ⟨storage, 0, 0⟩

/-- `a.swap(rhs)`: the storage, the reader index, and the reader index again. -/
def swap (a rhs : Buffer) : Buffer × Buffer :=
  let (a₁, rhs₁) := ({ a with buffer := rhs.buffer }, { rhs with buffer := a.buffer })
  let (a₂, rhs₂) :=
    ({ a₁ with readerIndex := rhs₁.readerIndex }, { rhs₁ with readerIndex := a₁.readerIndex })
  ({ a₂ with readerIndex := rhs₂.readerIndex }, { rhs₂ with readerIndex := a₂.readerIndex })

variable (b : Buffer)

def size : ℕ := b.buffer.length

def readableBytes : ℕ := sizeSub b.writerIndex b.readerIndex

def writableBytes : ℕ := sizeSub b.size b.writerIndex

/-- The bytes from `peek()` on, `readableBytes()` of them. -/
def readable : List Byte := b.buffer.window b.readerIndex b.writerIndex

def retrieveAll : Buffer := { b with readerIndex := 0, writerIndex := 0 }

def retrieve (len : ℕ) : Except Fault Buffer := do
  check (len ≤ b.readableBytes) .retrieve
  if len < b.readableBytes then .ok { b with readerIndex := sizeAdd b.readerIndex len }
  else .ok b.retrieveAll

/-- The pointer `stop` is a position of the storage, as `peek()` and `beginWrite()` are. -/
def retrieveUntil (stop : ℕ) : Except Fault Buffer := do
  check (b.readerIndex ≤ stop) .retrieveUntil
  check (stop ≤ b.writerIndex) .retrieveUntil
  b.retrieve (sizeSub stop b.readerIndex)

/-- Gives the string and what is left. -/
def retrieveAsString (len : ℕ) : Except Fault (List Byte × Buffer) := do
  let str := (b.buffer.drop b.readerIndex).take len
  let rest ← b.retrieve len
  .ok (str, rest)

def retrieveAllAsString : Except Fault (List Byte × Buffer) := b.retrieveAsString b.readableBytes

/-- The readable bytes moved to the front. -/
def compacted : Buffer :=
  { buffer := b.buffer.writeAt 0 b.readable
    readerIndex := 0
    writerIndex := sizeAdd 0 b.readableBytes }

/-- Grows the storage when the request is larger than the free tail and the readable bytes
together, and otherwise moves the readable bytes to the front. -/
def makeSpace (len : ℕ) : Except Fault Buffer :=
  if sizeAdd b.writableBytes b.readableBytes < len then do
    let storage ← resize b.buffer (sizeAdd b.writerIndex len)
    .ok { b with buffer := storage }
  else do
    check (b.readableBytes = b.compacted.readableBytes) .makeSpace
    .ok b.compacted

def ensureWriteBytes (len : ℕ) : Except Fault Buffer := do
  let roomy ← (if b.writableBytes < len then b.makeSpace len else .ok b : Except Fault Buffer)
  check (len ≤ roomy.writableBytes) .ensureWriteBytes
  .ok roomy

def hasWritten (len : ℕ) : Except Fault Buffer := do
  check (len ≤ b.writableBytes) .hasWritten
  .ok { b with writerIndex := sizeAdd b.writerIndex len }

/-- `std::copy` of `data` to `beginWrite()`. -/
def copyIn (data : List Byte) : Except Fault Buffer :=
  if data ≠ [] ∧ b.size < b.writerIndex + data.length then .error .outOfBounds
  else .ok { b with buffer := b.buffer.writeAt b.writerIndex data }

def append (data : List Byte) : Except Fault Buffer := do
  let roomy ← b.ensureWriteBytes data.length
  let filled ← roomy.copyIn data
  filled.hasWritten data.length

/-! ## System calls -/

/-- The size of the stack buffer `readFd` reads into past the free tail. -/
def extraSize : ℕ := 65536

/-- Reads into the free tail and, past it, into a stack buffer that is appended afterwards. Gives
the count, the saved `errno` and the buffer. -/
def readFd (answer : ReadResult) (savedErrno : Option Errno) :
    Except Fault (ℤ × Option Errno × Buffer) :=
  match answer with
  | .fails e => .ok (-1, some e, b)
  | .data bytes =>
    if b.writableBytes + extraSize < bytes.length then .error .impossible
    else if bytes.length ≤ b.writableBytes then do
      let filled ← b.copyIn bytes
      .ok (bytes.length, savedErrno,
        { filled with writerIndex := sizeAdd filled.writerIndex bytes.length })
    else do
      let filled ← b.copyIn (bytes.take b.writableBytes)
      let spilled ← { filled with writerIndex := filled.size }.append (bytes.drop b.writableBytes)
      .ok (bytes.length, savedErrno, spilled)

/-- What a write helper leaves: its return value, the saved `errno`, the bytes the kernel took and
the buffer. -/
structure Written where
  ret : ℤ
  savedErrno : Option Errno
  taken : List Byte
  buffer : Buffer
  deriving DecidableEq, Repr

/-- Offers all that is readable to the kernel. -/
def writeFd (answer : WriteResult) (savedErrno : Option Errno) : Written :=
  match answer with
  | .fails e => ⟨-1, some e, [], b⟩
  | .accepts _ =>
    let taken := answer.taken b.readable
    ⟨answer.ret b.readable, savedErrno, taken,
      { b with readerIndex := sizeAdd b.readerIndex taken.length }⟩

/-- Drains a descriptor whose pending answers are `answers`; past their end it has nothing to
deliver. The count `n` is that of the answers already drained. -/
def readFdET (b : Buffer) (n : ℤ) (savedErrno : Option Errno) :
    List ReadResult → Except Fault (ℤ × Option Errno × Buffer)
  | [] => .ok (n, some .EAGAIN, b)
  | answer :: answers => do
    let (len, saved, b') ← b.readFd answer savedErrno
    if len ≤ 0 then
      if saved = some .EAGAIN then .ok (n, saved, b') else .ok (len, saved, b')
    else b'.readFdET (n + len) saved answers

/-- The loop of `writeFdET`, with the answers the kernel will give to the writes still to come. It
has no result when the fuel runs out. -/
def writeFdETLoop (b : Buffer) (n : ℤ) (savedErrno : Option Errno) (taken : List Byte)
    (answers : ℕ → WriteResult) : ℕ → Option Written
  | 0 => none
  | fuel + 1 =>
    let w := b.writeFd (answers 0) savedErrno
    if w.ret ≤ 0 then
      if w.savedErrno = some .EAGAIN then some { w with ret := n, taken := taken ++ w.taken }
      else some { w with taken := taken ++ w.taken }
    else w.buffer.writeFdETLoop (n + w.ret) w.savedErrno (taken ++ w.taken)
      (fun i ↦ answers (i + 1)) fuel

/-- Every round but the last takes a byte, so there is one more round than there are bytes. -/
def writeFdET (answers : ℕ → WriteResult) (savedErrno : Option Errno) : Option Written :=
  b.writeFdETLoop 0 savedErrno [] answers (b.readableBytes + 1)

end Buffer

end Twnl
